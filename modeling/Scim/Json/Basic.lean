import Scim.Decimal.Binary64

/-!
# JSON values

A number is an integer or a double, told apart by how it is written. The fields of an object stand
in a list: one that was read has its keys in ascending order, each once, while one built by an
encoder has them in the order of declaration until it is sorted.
-/

namespace Scim

open Decimal (Binary64)

inductive Json where
  | null
  | bool (value : Bool)
  | int (value : Int)
  | float (value : Binary64)
  | str (value : String)
  | arr (items : List Json)
  | obj (fields : List (String × Json))
  deriving Inhabited, BEq, Repr

namespace Json

/-- Puts a field in its place among keys in ascending order; a field of the same key is replaced. -/
def insertField (key : String) (value : Json) : List (String × Json) → List (String × Json)
  | [] => [(key, value)]
  | (k, v) :: rest =>
    if key < k then (key, value) :: (k, v) :: rest
    else if key = k then (key, value) :: rest
    else (k, v) :: insertField key value rest

/-- The object with these fields in ascending order of their keys. Of two fields with one key the
later stays. -/
def object (fields : List (String × Json)) : Json :=
  .obj (fields.foldl (fun sorted f => insertField f.1 f.2 sorted) [])

mutual

/-- The same value with the keys of every object in ascending order. -/
def sorted : Json → Json
  | .arr items => .arr (sortedItems items)
  | .obj fields => object (sortedFields fields)
  | .null => .null
  | .bool b => .bool b
  | .int n => .int n
  | .float x => .float x
  | .str s => .str s

def sortedItems : List Json → List Json
  | [] => []
  | v :: rest => v.sorted :: sortedItems rest

def sortedFields : List (String × Json) → List (String × Json)
  | [] => []
  | (k, v) :: rest => (k, v.sorted) :: sortedFields rest

end

/-- The field of an object; every other value has none. -/
def get? (key : String) : Json → Option Json
  | .obj fields => fields.lookup key
  | _ => none

end Json

end Scim
