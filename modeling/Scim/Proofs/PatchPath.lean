import Scim.Patch.Apply
import Scim.Proofs.JsonRecord

/-!
# What the paths of patches name

A path of a patch names attributes by the names that they have in JSON, in any letter case. A path
for groups may have white space around it, and it may select members by a filter between brackets.
The path of the whole name names its three parts as well, and the path of a part also the name that
it is a part of. No path names the id, the schemas or the metadata.
-/

namespace Scim

namespace Patch

/-! ## Paths for users -/

namespace UserTarget

/-- The path as the attribute is called in JSON. -/
def spelling : UserTarget → String
  | .text .userName => "userName"
  | .text .displayName => "displayName"
  | .text .externalId => "externalId"
  | .text .nickName => "nickName"
  | .text .title => "title"
  | .text .userType => "userType"
  | .text .preferredLanguage => "preferredLanguage"
  | .text .locale => "locale"
  | .text .timezone => "timezone"
  | .active => "active"
  | .name => "name"
  | .namePart .formatted => "name.formatted"
  | .namePart .familyName => "name.familyName"
  | .namePart .givenName => "name.givenName"
  | .emails => "emails"

theorem mem_paths_iff {key : String} {t : UserTarget} :
    (key, t) ∈ paths ↔ key = Text.smallAscii t.spelling := by
  constructor
  · intro h
    have hkeys : paths.all (fun e => e.1 == Text.smallAscii e.2.spelling) = true := by decide
    exact beq_iff_eq.mp (List.all_eq_true.mp hkeys (key, t) h)
  · rintro rfl
    cases t with
    | text field => cases field <;> decide
    | namePart part => cases part <;> decide
    | _ => decide

/-- A path means what it spells, in whatever letter case. -/
theorem ofPath?_eq_some_iff {path : String} {t : UserTarget} :
    ofPath? path = some t ↔ Text.sameLetters path t.spelling = true := by
  rw [ofPath?, Json.lookup_eq_some_iff (by decide), mem_paths_iff, Text.sameLetters, beq_iff_eq]

end UserTarget

/-! ## Paths for groups -/

namespace GroupTarget

/-- The path as the attribute is called in JSON, or a selection of members. -/
def IsSpelled (path : String) : GroupTarget → Prop
  | .displayName => Text.sameLetters path "displayName" = true
  | .externalId => Text.sameLetters path "externalId" = true
  | .members => Text.sameLetters path "members" = true
  | .selected selector => ∃ front : List Char, path.toList = front ++ selector ++ [']'] ∧
      front.map Char.toLower = "members[".toList

theorem selector?_eq_some_iff {path selector : List Char} :
    selector? path = some selector ↔ ∃ front : List Char, path = front ++ selector ++ [']'] ∧
      front.map Char.toLower = "members[".toList := by
  rw [selector?]
  constructor
  · intro h
    by_cases hfront : (path.take 8).map Char.toLower = "members[".toList
    · rw [if_pos hfront] at h
      refine ⟨path.take 8, ?_, hfront⟩
      have hdrop : path.drop 8 = selector ++ [']'] := by
        rw [← List.reverse_reverse (path.drop 8)]
        split at h
        · rename_i inner hinner
          cases h
          rw [hinner, List.reverse_cons]
        · cases h
      rw [List.append_assoc, ← hdrop, List.take_append_drop]
    · rw [if_neg hfront] at h
      cases h
  · rintro ⟨front, rfl, hfront⟩
    have hlength : front.length = 8 := by
      have := congrArg List.length hfront
      simpa using this
    rw [List.append_assoc, List.take_left' hlength, List.drop_left' hlength, if_pos hfront,
      List.reverse_append]
    simp

theorem smallAscii_of_selected {path : String} {selector : List Char}
    (h : (selected selector).IsSpelled path) :
    (Text.smallAscii path).toList = "members[".toList ++ (selector ++ [']']).map Char.toLower := by
  obtain ⟨front, hpath, hfront⟩ := h
  rw [Text.smallAscii, String.toList_ofList, hpath, List.append_assoc, List.map_append, hfront]

/-- A selection of members is none of the plain paths. -/
theorem lookup_of_selector {path : String} {selector : List Char}
    (h : selector? path.toList = some selector) : paths.lookup (Text.smallAscii path) = none := by
  have hsmall := smallAscii_of_selected (selector?_eq_some_iff.mp h)
  cases hlookup : paths.lookup (Text.smallAscii path) with
  | none => rfl
  | some t =>
    have hmem := (Json.lookup_eq_some_iff (by decide)).mp hlookup
    simp only [paths, List.mem_cons, Prod.mk.injEq, List.not_mem_nil, or_false] at hmem
    rcases hmem with ⟨hkey, -⟩ | ⟨hkey, -⟩ | ⟨hkey, -⟩
    · rw [hkey] at hsmall
      cases hsmall
    · rw [hkey] at hsmall
      cases hsmall
    · rw [hkey] at hsmall
      cases hsmall

/-- What a plain path for groups spells. -/
theorem lookup_eq_some_iff {path : String} {t : GroupTarget} :
    paths.lookup (Text.smallAscii path) = some t ↔
      (∀ selector, t ≠ .selected selector) ∧ t.IsSpelled path := by
  rw [Json.lookup_eq_some_iff (by decide)]
  have hdisplay : Text.smallAscii "displayName" = "displayname" := by decide
  have hexternal : Text.smallAscii "externalId" = "externalid" := by decide
  have hmembers : Text.smallAscii "members" = "members" := by decide
  cases t <;> simp [paths, IsSpelled, Text.sameLetters, hdisplay, hexternal, hmembers]

/-- A path means what it spells without the white space around it, in whatever letter case. -/
theorem ofPath?_eq_some_iff {path : String} {t : GroupTarget} :
    ofPath? path = some t ↔ t.IsSpelled (Text.trim path) := by
  have plain (ht : ∀ selector, t ≠ .selected selector) :
      ofPath? path = some t ↔ t.IsSpelled (Text.trim path) := by
    have hlookup := @lookup_eq_some_iff (Text.trim path) t
    rw [and_iff_right ht] at hlookup
    rw [← hlookup]
    simp only [ofPath?]
    cases paths.lookup (Text.smallAscii (Text.trim path)) with
    | some u => exact Iff.rfl
    | none =>
      refine iff_of_false ?_ nofun
      intro h
      obtain ⟨selector, -, rfl⟩ := Option.map_eq_some_iff.mp h
      exact ht selector rfl
  cases t with
  | selected selector =>
    refine Iff.trans ?_ selector?_eq_some_iff
    simp only [ofPath?]
    cases hlookup : paths.lookup (Text.smallAscii (Text.trim path)) with
    | none => simp
    | some u =>
      constructor
      · rintro ⟨⟩
        exact absurd rfl ((lookup_eq_some_iff.mp hlookup).1 selector)
      · intro h
        rw [lookup_of_selector h] at hlookup
        cases hlookup
  | displayName => exact plain nofun
  | externalId => exact plain nofun
  | members => exact plain nofun

end GroupTarget

/-! ## Paths that name nothing -/

/-- Paths of what belongs to the server: the id, the schemas, and the metadata with anything under
it. The empty path counts as well. -/
def isServerOwned (path : String) : Bool :=
  let small := Text.smallAscii path
  small == "" || small == "id" || small == "schemas" || "meta".toList.isPrefixOf small.toList

theorem isServerOwned_congr {a b : String} (h : Text.sameLetters a b = true) :
    isServerOwned a = isServerOwned b := by
  rw [Text.sameLetters, beq_iff_eq] at h
  simp only [isServerOwned, h]

theorem UserTarget.not_isServerOwned {path : String} {t : UserTarget}
    (h : Text.sameLetters path t.spelling = true) : isServerOwned path = false := by
  rw [isServerOwned_congr h]
  cases t with
  | text field => cases field <;> decide
  | namePart part => cases part <;> decide
  | _ => decide

theorem GroupTarget.not_isServerOwned {path : String} {t : GroupTarget} (h : t.IsSpelled path) :
    isServerOwned path = false := by
  cases t with
  | displayName => exact (isServerOwned_congr h).trans (by decide)
  | externalId => exact (isServerOwned_congr h).trans (by decide)
  | members => exact (isServerOwned_congr h).trans (by decide)
  | selected selector =>
    have hsmall := smallAscii_of_selected h
    have differs (word : String) (hword : word.toList.take 8 ≠ "members[".toList) :
        (Text.smallAscii path == word) = false := by
      refine beq_eq_false_iff_ne.mpr fun heq => hword ?_
      rw [← heq, hsmall]
      rfl
    simp only [isServerOwned, differs "" (by decide), differs "id" (by decide),
      differs "schemas" (by decide), hsmall]
    rfl

end Patch

/-! ## Attributes -/

/-- The attributes of a user that patches can change. Each part of the name counts by itself. -/
inductive UserAttribute where
  | text (field : Patch.UserText)
  | active
  | name
  | namePart (part : Patch.NamePart)
  | emails

inductive GroupAttribute where
  | displayName
  | externalId
  | members

namespace Patch

/-- The path names the attribute. -/
inductive UserTarget.Covers : UserTarget → UserAttribute → Prop
  | text (field : UserText) : Covers (.text field) (.text field)
  | active : Covers .active .active
  | name : Covers .name .name
  | partOfName (part : NamePart) : Covers .name (.namePart part)
  | nameOfPart (part : NamePart) : Covers (.namePart part) .name
  | namePart (part : NamePart) : Covers (.namePart part) (.namePart part)
  | emails : Covers .emails .emails

/-- The attribute that the path names. -/
def GroupTarget.named : GroupTarget → GroupAttribute
  | .displayName => .displayName
  | .externalId => .externalId
  | .members => .members
  | .selected _ => .members

end Patch

def Name.part (n : Name) : Patch.NamePart → Option String
  | .formatted => n.formatted
  | .familyName => n.familyName
  | .givenName => n.givenName

def User.text (u : User) : Patch.UserText → Option String
  | .userName => u.userName
  | .displayName => u.displayName
  | .externalId => u.externalId
  | .nickName => u.nickName
  | .title => u.title
  | .userType => u.userType
  | .preferredLanguage => u.preferredLanguage
  | .locale => u.locale
  | .timezone => u.timezone

/-- Types of resources whose attributes are named by the paths of patches. -/
class Attributed (α : Type) where
  Attribute : Type
  Value : Attribute → Type
  value : (a : Attribute) → α → Value a
  /-- A path as it is compared with the names of attributes. -/
  reads : String → String
  Names : String → Attribute → Prop

instance : Attributed User where
  Attribute := UserAttribute
  Value
    | .text _ => Option String
    | .active => Bool
    | .name => Option Name
    | .namePart _ => Option String
    | .emails => List Email
  value
    | .text field, u => u.text field
    | .active, u => u.active
    | .name, u => u.name
    | .namePart part, u => u.name.bind (·.part part)
    | .emails, u => u.emails
  reads path := path
  Names path a := ∃ t : Patch.UserTarget, Text.sameLetters path t.spelling = true ∧ t.Covers a

instance : Attributed Group where
  Attribute := GroupAttribute
  Value
    | .displayName => Option String
    | .externalId => Option String
    | .members => List Member
  value
    | .displayName, g => g.displayName
    | .externalId, g => g.externalId
    | .members, g => g.members
  reads := Text.trim
  Names path a := ∃ t : Patch.GroupTarget, t.IsSpelled (Text.trim path) ∧ t.named = a

end Scim
