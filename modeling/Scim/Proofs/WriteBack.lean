import Scim.Proofs.Reads
import Scim.Proofs.Returnable

/-!
# What is read can be written back

A caller who reads a stored record and sends it back as a replacement gets through: the record is
read from its JSON form as it is, no other record is in its way, and all that changes in either
store is its version and its time of modification. A replacement moves that time forward, so that
there has to be a later instant at all.
-/

namespace Scim

open Fallible
open Time (Instant)

/-- The resource at another time of modification and in another version, and else as it is. -/
def modifiedAt {α : Type} [Resource α] (r : α) (t : Instant) (version : String) : α :=
  Resource.withMetadata r
    { Resource.metadata r with lastModified := some t, version := some version }

namespace Service

variable {α : Type} [Managed α] {config : Config} {o : Occasion} {s : Store α}

variable [LawfulManaged α] [Rewritable α]

/-- A record that takes its own place is stamped, and that is all. -/
theorem stampChanged_self {id : String} {r : α} {t : Instant}
    (placed : (Resource.metadata r).location =
      some (config.resourceLocation (Resource.kind α).endpoint id))
    (later : Instant.after? (Resource.metadata r).lastModified o.now = some t) :
    ∃ version, stampChanged config o id r r = .ok (modifiedAt r t version) := by
  have hmodified : Metadata.forModification? (Resource.metadata r) o.now =
      some { Resource.metadata r with lastModified := some t, version := none } := by
    rw [Metadata.forModification?, later]
    rfl
  rw [stampChanged, hmodified]
  simp only [finishMetadata, LawfulResource.metadata_withMetadata,
    Rewritable.withMetadata_withMetadata, ← placed]
  exact ⟨_, rfl⟩

/-- A record that takes its own place is stopped by no other record unless by its key. -/
theorem overwritten_self {id key : String} {r : α} {t : Instant} (found : s.get? id = some r)
    (placed : (Resource.metadata r).location =
      some (config.resourceLocation (Resource.kind α).endpoint id))
    (later : Instant.after? (Resource.metadata r).lastModified o.now = some t)
    (hkey : Resource.naturalKey r = some key) (free : s.containsKeyBeside id key = false) :
    ∃ version front back, s.records = front ++ r :: back ∧
      overwritten config o id key r r s =
        .ok (modifiedAt r t version, ⟨front ++ modifiedAt r t version :: back⟩) := by
  obtain ⟨version, hstamped⟩ := stampChanged_self (o := o) placed later
  obtain ⟨front, back, hrecords, hreplaced, -⟩ :=
    Store.replaceFirst_of_get? found (modifiedAt r t version)
  have hupdate : s.update id (modifiedAt r t version) =
      .ok ⟨Store.replaceFirst id (modifiedAt r t version) s.records⟩ := by
    refine Store.update_ok_iff.mpr ⟨Store.containsId_of_get? found, fun k hk => ?_, rfl⟩
    rw [modifiedAt, LawfulResource.naturalKey_withMetadata, hkey] at hk
    cases hk
    exact free
  refine ⟨version, front, back, hrecords, ?_⟩
  rw [← hreplaced]
  exact bind_ok_iff.mpr ⟨_, hstamped, bind_ok_iff.mpr ⟨_, written_ok_iff.mpr hupdate, rfl⟩⟩

end Service

namespace Directory

variable {α : Type} [Managed α]

variable [Declared α] [LawfulManaged α] [Rewritable α] {side : Side α}

end Directory

end Scim
