import Scim.Resource

/-!
# Filterable attributes

The attributes that a filter may name, per type of resource, and how each is read. A path names an
attribute exactly as written, letter case included.
-/

namespace Scim

namespace Filter

open Time (Instant)

/-- How an attribute is read, by what it holds. -/
inductive Reading (α : Type) where
  | text (read : α → Option String)
  | boolean (read : α → Bool)
  | timestamp (read : α → Option Instant)

structure Attribute (α : Type) where
  path : String
  reading : Reading α

end Filter

class Filterable (α : Type) where
  attributes : List (Filter.Attribute α)

namespace Filterable

/-- The reading of the attribute that a path names. -/
def reading? (α : Type) [Filterable α] (path : String) : Option (Filter.Reading α) :=
  ((@attributes α _).find? (·.path == path)).map (·.reading)

end Filterable

instance : Filterable User where
  attributes := [
    ⟨"userName", .text User.userName⟩,
    ⟨"displayName", .text User.displayName⟩,
    ⟨"externalId", .text User.externalId⟩,
    ⟨"active", .boolean User.active⟩,
    ⟨"meta.lastModified", .timestamp fun u => u.metadata.lastModified⟩]

instance : Filterable Group where
  attributes := [
    ⟨"displayName", .text Group.displayName⟩,
    ⟨"externalId", .text Group.externalId⟩,
    ⟨"meta.lastModified", .timestamp fun g => g.metadata.lastModified⟩]

end Scim
