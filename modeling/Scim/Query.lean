import Scim.Filter.Grammar
import Scim.Filter.Predicate
import Scim.Log

/-!
# Queries

A query names a schema, filters the resources of one type, and may limit how many are answered. The
order of the resources is kept.
-/

namespace Scim

/-- A limit on the count of results. Without a count it lets none through. -/
structure Pagination where
  count : Option Nat
  deriving DecidableEq, Repr

namespace Pagination

def record : Record Pagination :=
  Record.start Pagination.mk |>.optional "count" Decode.count

def decode : Json → Decoded Pagination :=
  record.decode "PaginationParameters"

def encode (p : Pagination) : Json :=
  .obj (Encode.optional "count" (p.count.map fun n => .int n))

end Pagination

structure Query where
  filters : List Filter.Conjunction
  schemaIdentifier : String
  pagination : Option Pagination
  deriving DecidableEq, Repr

namespace Query

def record : Record Query :=
  Record.start Query.mk
    |>.defaulted "alternateFilters" (Decode.list Filter.Conjunction.decode) []
    |>.required "schemaIdentifier" Decode.text
    |>.defaulted "pagination" (Decode.optional Pagination.decode) none

def decode : Json → Decoded Query :=
  record.decode "QueryParameters"

def encode (q : Query) : Json :=
  .obj <|
    [("alternateFilters", .arr (q.filters.map Filter.Conjunction.encode)),
      ("schemaIdentifier", .str q.schemaIdentifier)] ++
    Encode.optional "pagination" (q.pagination.map Pagination.encode)

/-- The query for every resource of a schema. -/
def ofSchema (schemaIdentifier : String) : Query :=
  ⟨[], schemaIdentifier, none⟩

/-- The query with the alternatives of a filter text added. -/
def addFilterText (q : Query) (filter : String) : Except Fault Query :=
  (Fault.ofFiltered (Filter.parse filter)).map fun cs => { q with filters := q.filters ++ cs }

def validate (q : Query) : Except Fault Unit :=
  if Text.isBlank q.schemaIdentifier then .error (.validation .missingSchemaIdentifier) else .ok ()

/-- The results that pagination leaves. -/
def limit {α : Type} (q : Query) (results : List α) : List α :=
  match q.pagination with
  | none => results
  | some p => results.take (p.count.getD 0)

/-- The resources that satisfy the query, out of all of their type. -/
def select {α : Type} [Filterable α] (q : Query) (all : List α) : Except Fault (List α) := do
  q.validate
  let predicate ← Filter.compile α q.filters
  return q.limit (all.filter predicate.holds)

/-- What a query that succeeded reports. -/
def report {α : Type} (q : Query) (all results : List α) : List LogLine :=
  [⟨.trace, "Compiled filter with " ++ countText q.filters.length ++ " alternative(s): " ++
      Filter.display q.filters⟩,
    ⟨.debug, "Query on '" ++ q.schemaIdentifier ++ "' matched " ++ countText results.length ++
      " of " ++ countText all.length ++ " resource(s)"⟩]

end Query

end Scim
