import Scim.Proofs.History

/-!
# Stores stay in order

Stores that are filled by creations alone, and then only reached through a directory, stay in order:
every record has an id, and no two share one or share a natural key. A record that the directory
itself wrote has a natural key that is not blank, which a store does not ask for.
-/

namespace Scim

variable {α : Type}

/-- A natural key is there and not blank. -/
def Named [Resource α] (r : α) : Prop :=
  ∃ key, Resource.naturalKey r = some key ∧ Text.isBlank key = false

/-- A record that was just written has passed the check of its natural key. -/
theorem Service.Written.named [Managed α] [LawfulManaged α] {config : Config} {o : Occasion}
    {s : Store α} {r : α} (h : Written config o s r) : Named r := by
  cases h with
  | new hkey =>
    rw [Named, naturalKey_stampNew]
    exact ⟨_, requireNaturalKey_ok_iff.mp hkey⟩
  | inPlace overwrites =>
    obtain ⟨key, hkey, -⟩ := overwrites.key
    rw [Named, overwrites.naturalKey_stored]
    exact ⟨key, requireNaturalKey_ok_iff.mp hkey⟩

namespace Store

variable [Resource α]

/-- The store that a sequence of calls to create leaves, of which some may have been refused. -/
def filled (rs : List α) : Store α :=
  rs.foldl (fun s r => ((Store.repository α).create r s).state) empty

theorem kept_filled (rs : List α) : (filled rs).Kept := by
  induction rs using List.reverseRecOn with
  | nil => exact kept_empty
  | append_singleton rs r ih =>
    rw [filled, List.foldl_append]
    change (((Store.repository α).create r (filled rs)).state).Kept
    simp only [Store.repository, respond]
    cases hcreate : (filled rs).create r with
    | error e => exact ih
    | ok t => exact ih.create hcreate

end Store

namespace Directory

def filled (us : List User) (gs : List Group) : Stores :=
  ⟨Store.filled us, Store.filled gs⟩

/-- Where a storing request for its id succeeded, a record has a natural key. By induction on the
history from its end: a record that the last event did not write was there before it. -/
theorem Side.named_after [Managed α] [LawfulManaged α] (side : Side α) {config : Config} {s : Stores}
    (hs : (side.store s).Kept) (events : List Event) {r : α} {id : String}
    (hr : r ∈ (side.store (after config s events)).records) (hid : Resource.id r = some id)
    (happened : Happened config s events Verb.isStoring side.kind id) : Named r := by
  induction events using List.reverseRecOn with
  | nil => exact absurd happened not_happened_nil
  | append_singleton events e ih =>
    rw [after_snoc] at hr
    rcases side.step config (after config s events) e with ⟨-, -, hchange⟩ | ⟨hnot, heq⟩
    · rcases hchange.mem_cases (side.kept_after config hs events) hr with ⟨hold, hne⟩ | hwritten
      · refine ih hold ((happened_snoc_of_not fun h => ?_).mp happened)
        rw [hid] at hne
        exact hne h.2.verb h.2.subject
      · exact hwritten.named
    · rw [heq] at hr
      exact ih hr ((happened_snoc_of_not fun h => hnot ⟨h.1, h.2.kind⟩).mp happened)

/-- Stores that were filled by creations are in order after every history, and every record that was
written in the history has a natural key. -/
theorem after_filled_kept (config : Config) (us : List User) (gs : List Group)
    (events : List Event) :
    (after config (filled us gs) events).users.Kept ∧
    (after config (filled us gs) events).groups.Kept ∧
    (∀ u ∈ (after config (filled us gs) events).users.records, ∀ id, u.id = some id →
      Happened config (filled us gs) events Verb.isStoring .user id → Named u) ∧
    (∀ g ∈ (after config (filled us gs) events).groups.records, ∀ id, g.id = some id →
      Happened config (filled us gs) events Verb.isStoring .group id → Named g) := by
  have husers : (users.store (filled us gs)).Kept := Store.kept_filled us
  have hgroups : (groups.store (filled us gs)).Kept := Store.kept_filled gs
  refine ⟨users.kept_after config husers events, groups.kept_after config hgroups events, ?_, ?_⟩
  · intro u hu id hid happened
    exact users.named_after husers events hu hid happened
  · intro g hg id hid happened
    exact groups.named_after hgroups events hg hid happened

end Directory

end Scim
