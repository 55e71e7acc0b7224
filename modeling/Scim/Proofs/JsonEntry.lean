import Scim.Proofs.ResourceForm

/-!
# Resources read from JSON

Resources enter as JSON, and the first of their schemas that tells a kind decides what they are read
as. A resource that was read has just the schemas that were declared, so that they tell its own
kind, and any resource whose schemas do that is read back from its JSON form as it is.
-/

namespace Scim

open Fallible

/-! ## Schemas -/

theorem sorted_texts (ss : List String) : (Encode.texts ss).sorted = Encode.texts ss := by
  rw [Encode.texts, Json.sorted, Json.sortedItems_eq_map, List.map_map]
  refine congrArg Json.arr (List.map_congr_left fun s _ => ?_)
  rw [Function.comp_apply, Json.sorted]

theorem declaredSchemas_of_get? {v : Json} {ss : List String}
    (h : v.get? "schemas" = some (Encode.texts ss)) : declaredSchemas v = ss := by
  rw [declaredSchemas, h, Encode.texts]
  simp [List.filterMap_map]

/-- The schemas of an object that is written from its slots. -/
theorem declaredSchemas_present {slots : List (String × Option Json)} {ss : List String}
    (nodup : (slots.map Prod.fst).Nodup) (h : ("schemas", some (Encode.texts ss)) ∈ slots) :
    declaredSchemas (Json.obj (Json.present slots)).sorted = ss := by
  apply declaredSchemas_of_get?
  rw [Json.sorted_obj, Json.get?, Json.lookup_sortFields_present nodup h, Option.map_some,
    sorted_texts]

/-! ## Records that start with their schemas -/

namespace Record

variable {α β : Type}

/-- Whatever the record gathers from the object satisfies the predicate. -/
def Gathers (r : Record α) (fields : List (String × Json)) (P : α → Prop) : Prop :=
  ∀ expected x, r.gather expected (.named fields) = .ok x → P x

/-- One more field, of which nothing is said. -/
theorem Gathers.field {r : Record (β → α)} {fields : List (String × Json)} {P : α → Prop}
    (h : r.Gathers fields fun f => ∀ b, P (f b)) {name : String} {alternative : Option String}
    {item : Json → Decoded β} {absent : Decoded β} {filler : Option β} :
    (r.field name alternative item absent filler).Gathers fields P := by
  intro expected x hx
  obtain ⟨f, hf, hx⟩ := bind_ok_iff.mp hx
  split at hx
  · obtain ⟨b, -, rfl⟩ := map_ok_iff.mp hx
    exact h expected f hf b
  · obtain ⟨b, -, rfl⟩ := map_ok_iff.mp hx
    exact h expected f hf b
  · next heq => cases heq

end Record

namespace AnyResource

def schemas : AnyResource → List String
  | .user u => u.schemas
  | .group g => g.schemas

end AnyResource

end Scim
