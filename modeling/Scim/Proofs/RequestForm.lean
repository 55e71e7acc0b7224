import Scim.Proofs.ResourceForm
import Scim.Service.Request

/-!
# The JSON form of requests

Addresses, filters and the parameters of queries and retrievals are read back from their JSON form
as they were written, as resources and their parts are. Wherever a value came from, an object or an
array, with fields left out or filled with nothing, an instant at whatever offset, its own form
stands for it.
-/

namespace Scim

open Record (Codec Reads)

namespace Filter

namespace Operator

/-- No two operators have the same word. -/
theorem lookup_word (o : Operator) : (all.map fun o => (o.word, o)).lookup o.word = some o := by
  cases o <;> decide +kernel

theorem codec : Codec decode encode := by
  refine ⟨fun o => ?_, fun o => ?_⟩
  · rw [encode, Json.sorted, decode, Decode.variant, Decode.variant.named, lookup_word]
  · rw [encode, Json.sorted]
    intro h
    cases h

end Operator

namespace Term

def slots (t : Term) : List (String × Option Json) :=
  [("attributePath", some (.str t.path)), ("operator", some t.operator.encode),
    ("comparisonValue", some (.str t.value))]

theorem reads (t : Term) : record.Reads t.slots t :=
  (Reads.start Term.mk).required "attributePath" .text t.path
    |>.required "operator" Operator.codec t.operator
    |>.required "comparisonValue" .text t.value

theorem codec : Codec decode encode :=
  .record (fun _ => rfl) reads (fun _ => by simp [slots]) "FilterTerm"

end Term

/-- A conjunction has the form of the list of its terms. -/
theorem Conjunction.codec : Codec decode encode := by
  refine ⟨fun c => ?_, fun c => Term.codec.list.solid c.terms⟩
  have hterms := Term.codec.list.back c.terms
  rw [encode, decode, hterms]
  rfl

end Filter

namespace Pagination

def slots (p : Pagination) : List (String × Option Json) :=
  [("count", p.count.map fun n : Nat => .int n)]

theorem encode_eq (p : Pagination) : p.encode = .obj (Json.present p.slots) := by
  obtain ⟨count⟩ := p
  cases count with
  | none => rfl
  | some n => rfl

theorem reads (p : Pagination) : record.Reads p.slots p :=
  (Reads.start Pagination.mk).optional "count" .count p.count

theorem codec : Codec decode encode :=
  .record encode_eq reads (fun _ => by simp [slots]) "PaginationParameters"

end Pagination

namespace Query

def slots (q : Query) : List (String × Option Json) :=
  [("alternateFilters", some (.arr (q.filters.map Filter.Conjunction.encode))),
    ("schemaIdentifier", some (.str q.schemaIdentifier)),
    ("pagination", q.pagination.map Pagination.encode)]

theorem encode_eq (q : Query) : q.encode = .obj (Json.present q.slots) := by
  simp only [encode, slots, Json.present_cons, Json.present, Encode.optional, List.append_nil]
  rfl

theorem reads (q : Query) : record.Reads q.slots q :=
  (Reads.start Query.mk).defaulted "alternateFilters" Filter.Conjunction.codec.list q.filters []
    |>.required "schemaIdentifier" .text q.schemaIdentifier
    |>.omittable "pagination" Pagination.codec q.pagination

theorem codec : Codec decode encode :=
  .record encode_eq reads (fun _ => by simp [slots]) "QueryParameters"

end Query

namespace Address

def slots (a : Address) : List (String × Option Json) :=
  [("schemaIdentifier", some (.str a.schemaIdentifier)), ("identifier", some (.str a.identifier))]

theorem reads (a : Address) : record.Reads a.slots a :=
  (Reads.start Address.mk).required "schemaIdentifier" .text a.schemaIdentifier
    |>.required "identifier" .text a.identifier

theorem codec : Codec decode encode :=
  .record (fun _ => rfl) reads (fun _ => by simp [slots]) "ResourceIdentifier"

end Address

namespace Retrieval

def slots (r : Retrieval) : List (String × Option Json) :=
  [("resourceIdentifier", some r.address.encode)]

theorem reads (r : Retrieval) : record.Reads r.slots r :=
  (Reads.start Retrieval.mk).required "resourceIdentifier" Address.codec r.address

theorem codec : Codec decode encode :=
  .record (fun _ => rfl) reads (fun _ => by simp [slots]) "RetrievalParameters"

end Retrieval

/-! ## The forms of the whole model -/

/-- Every value, whatever it was decoded from, is decoded again from its own form, as it stands once
its keys are sorted. -/
def ReadsBack {α : Type} (decode : Json → Decoded α) (encode : α → Json) : Prop :=
  ∀ x, decode (encode x).sorted = .ok x

/-- All that is exchanged as JSON is read back from its own form: resources and their parts, and
what requests are made of. -/
theorem forms_read_back :
    ReadsBack User.decode User.encode ∧ ReadsBack Group.decode Group.encode ∧
      ReadsBack Member.decode Member.encode ∧ ReadsBack Email.decode Email.encode ∧
      ReadsBack Name.decode Name.encode ∧ ReadsBack Metadata.decode Metadata.encode ∧
      ReadsBack Filter.Term.decode Filter.Term.encode ∧
      ReadsBack Filter.Conjunction.decode Filter.Conjunction.encode ∧
      ReadsBack Query.decode Query.encode ∧ ReadsBack Pagination.decode Pagination.encode ∧
      ReadsBack Address.decode Address.encode ∧ ReadsBack Retrieval.decode Retrieval.encode :=
  ⟨User.codec.back, Group.codec.back, Member.codec.back, Email.codec.back, Name.codec.back,
    Metadata.codec.back, Filter.Term.codec.back, Filter.Conjunction.codec.back, Query.codec.back,
    Pagination.codec.back, Address.codec.back, Retrieval.codec.back⟩

/-- A leap second that an array gives at another offset is written without the offset. -/
example : (Metadata.decode (.arr [.null, .str "2017-01-01T00:59:60.25+01:00", .null, .null,
      .str ""])).map (fun m => m.created.map Time.Instant.text) =
    .ok (some "2016-12-31T23:59:60.250Z") := by
  decide +kernel

end Scim
