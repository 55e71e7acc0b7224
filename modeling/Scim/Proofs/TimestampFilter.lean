import Scim.Proofs.FilterMeaning
import Scim.Proofs.SpelledInstant

/-!
# Filters of the time of modification

A filter can ask for what was modified at an instant or after it, or at an instant or before it. The
instant may be spelled in any way, with white space around it. What is let through depends on the
instant alone: the resources that have a time of modification on that side of it.
-/

namespace Scim

namespace Time.Instant

/-- How an instant can be written: by every clock less than a day from UTC, and in both of its own
forms. -/
structure Spellable (t : Instant) : Prop where
  anywhere {offset : Int} : offset.natAbs < 1440 → ∃ l zone, l.ShowsAt offset t ∧
    (∀ k : Instant, k.ShowsAt offset t → k = l) ∧ WritesZone offset zone ∧
    (l.HasPlainYear → t.Spells (l.chars zone))
  text : t.Spells t.text.toList
  offsetText : t.Spells t.offsetText.toList

theorem HasPlainYear.spellable {t : Instant} (h : t.HasPlainYear) : t.Spellable where
  anywhere small := by
    obtain ⟨l, hl, unique⟩ := existsUnique_showsAt h.inside small
    obtain ⟨zone, hzone⟩ := exists_writesZone small
    exact ⟨l, zone, hl, unique, hzone, fun year => hl.spells_chars year hzone⟩
  text := h.spells_text
  offsetText := h.spells_offsetText

end Time.Instant

namespace Filter

open Time (Instant)

section Statements

variable (α : Type) [Resource α] [Filterable α]

/-- Compared with this text, a resource is let through by when it was last modified: at the instant
or after it, and at the instant or before it. -/
structure ComparesBy (t : Instant) (value : String) : Prop where
  atLeast : ∃ p : Predicate α, compile α [.ofTerm ⟨"meta.lastModified", .atLeast, value⟩] = .ok p ∧
    ∀ r, p.holds r = true ↔ ∃ m, (Resource.metadata r).lastModified = some m ∧ t ≤ m
  atMost : ∃ p : Predicate α, compile α [.ofTerm ⟨"meta.lastModified", .atMost, value⟩] = .ok p ∧
    ∀ r, p.holds r = true ↔ ∃ m, (Resource.metadata r).lastModified = some m ∧ m ≤ t

/-- Every spelling of an instant filters at the instant, and what a resource itself shows lets it
through. -/
structure FiltersByInstant : Prop where
  spelled {t : Instant} {front cs back : List Char} : t.Spells cs →
    (∀ c ∈ front, Text.isSpace c = true) → (∀ c ∈ back, Text.isSpace c = true) →
    ComparesBy α t (String.ofList (front ++ cs ++ back))
  own {r : α} {m : Instant} {value : String} : (Resource.metadata r).lastModified = some m →
    m.HasPlainYear → value = m.text ∨ value = m.offsetText →
    Term.Admits ⟨"meta.lastModified", .atLeast, value⟩ r ∧
      Term.Admits ⟨"meta.lastModified", .atMost, value⟩ r

end Statements

theorem holds_notBefore_iff {α : Type} {read : α → Option Instant} {t : Instant} {r : α} :
    (Matcher.notBefore read t).holds r = true ↔ ∃ m, read r = some m ∧ t ≤ m := by
  simp only [Matcher.holds]
  cases read r with
  | none => simp
  | some m => simp

theorem holds_notAfter_iff {α : Type} {read : α → Option Instant} {t : Instant} {r : α} :
    (Matcher.notAfter read t).holds r = true ↔ ∃ m, read r = some m ∧ m ≤ t := by
  simp only [Matcher.holds]
  cases read r with
  | none => simp
  | some m => simp

variable {α : Type} [Resource α] [Filterable α]

/-- A text that spells an instant is not blank. -/
theorem not_isBlank_of_spelled {t : Instant} {value : String}
    (h : Instant.ofSpelling? (Text.trim value) = some t) : Text.isBlank value = false := by
  by_contra hblank
  rw [Bool.not_eq_false] at hblank
  have hempty : Text.trimChars value.toList = [] := by
    rw [Text.trimChars_eq_nil_iff]
    exact hblank
  rw [Text.trim, hempty] at h
  cases h

/-- Only the instant of a comparison value counts. -/
theorem comparesBy_of_spelled
    (timestamp : Filterable.reading? α "meta.lastModified" =
      some (.timestamp fun r => (Resource.metadata r).lastModified))
    {t : Instant} {value : String} (spelled : Instant.ofSpelling? (Text.trim value) = some t) :
    ComparesBy α t value := by
  have hpath : Text.isBlank "meta.lastModified" = false := by decide
  have hvalue := not_isBlank_of_spelled spelled
  have hread (path : String) : readTimestamp path value = .ok t := by
    simp only [readTimestamp, spelled]
  constructor
  · refine ⟨⟨[[.notBefore (fun r => (Resource.metadata r).lastModified) t]]⟩, ?_, ?_⟩
    · simp only [compile_ofTerm, compileTerm, hpath, hvalue, timestamp, hread]
      rfl
    · intro r
      rw [holds_single, holds_notBefore_iff]
  · refine ⟨⟨[[.notAfter (fun r => (Resource.metadata r).lastModified) t]]⟩, ?_, ?_⟩
    · simp only [compile_ofTerm, compileTerm, hpath, hvalue, timestamp, hread]
      rfl
    · intro r
      rw [holds_single, holds_notAfter_iff]

theorem filtersByInstant
    (timestamp : Filterable.reading? α "meta.lastModified" =
      some (.timestamp fun r => (Resource.metadata r).lastModified)) : FiltersByInstant α where
  spelled h before after := comparesBy_of_spelled timestamp (h.ofSpelling?_trim before after)
  own {r m value} hmodified year hvalue := by
    have hspells : m.Spells value.toList := by
      rcases hvalue with rfl | rfl
      · exact year.spells_text
      · exact year.spells_offsetText
    have hspelled := @Instant.Spells.ofSpelling?_trim m [] value.toList [] hspells nofun nofun
    rw [List.nil_append, List.append_nil, String.ofList_toList] at hspelled
    have hcompares : ComparesBy α m value := comparesBy_of_spelled timestamp hspelled
    obtain ⟨p, hp, hholds⟩ := hcompares.atLeast
    obtain ⟨q, hq, hholds'⟩ := hcompares.atMost
    exact ⟨⟨p, hp, (hholds r).mpr ⟨m, hmodified, Instant.le_refl m⟩⟩,
      ⟨q, hq, (hholds' r).mpr ⟨m, hmodified, Instant.le_refl m⟩⟩⟩

/-- A time of modification is compared by its instant, in whatever way the instant is spelled. -/
theorem spelled_instants_filter :
    (∀ t u : Instant, t ≤ u ↔ t.seconds < u.seconds ∨ t.seconds = u.seconds ∧ t.nano ≤ u.nano) ∧
    (∀ t : Instant, t.HasPlainYear → t.Spellable) ∧ FiltersByInstant User ∧ FiltersByInstant Group :=
  ⟨fun _ _ => Instant.le_iff_seconds, fun _ h => h.spellable, filtersByInstant rfl,
    filtersByInstant rfl⟩

/-- Half a second into the leap second at the end of 2016. -/
def leapSecond : Instant :=
  ⟨⟨2016, 12, 31, by decide, by decide, by decide⟩, 86399, 1500000000, by decide, by decide⟩

/-- What the clocks of Kolkata showed then. -/
def leapSecondInKolkata : Instant :=
  ⟨(Time.Date.ofCivil? 2017 1 1).get (by decide), 19799, 1500000000, by decide, by decide⟩

theorem leap_second_filters :
    leapSecond.HasPlainYear ∧ leapSecond.Spellable ∧
      ComparesBy User leapSecond " 2017-01-01T05:29:60.50+05:30\n" := by
  obtain ⟨-, spellable, users, -⟩ := spelled_instants_filter
  have hyear : leapSecond.HasPlainYear := ⟨by decide, by decide⟩
  have hshows : leapSecondInKolkata.ShowsAt 330 leapSecond := ⟨by decide, rfl⟩
  have hfraction : Time.WritesFraction (leapSecondInKolkata.nano % 1000000000) ".50".toList :=
    .digits (by decide) (List.all_eq_true.mp (by decide)) (by decide)
  have hzone : Time.WritesZone 330 "+05:30".toList :=
    .ahead (h := 5) (m := 30) (by decide) (by decide)
  have hspells : leapSecond.Spells (leapSecondInKolkata.charsWith 'T' ".50".toList ++ "+05:30".toList) :=
    .zoned hshows ⟨by decide, by decide⟩ (.inl rfl) hfraction hzone
  exact ⟨hyear, spellable leapSecond hyear,
    @FiltersByInstant.spelled User _ _ users leapSecond [' '] _ ['\n'] hspells
      (List.all_eq_true.mp rfl) (List.all_eq_true.mp rfl)⟩

end Filter

end Scim
