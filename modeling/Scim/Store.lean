import Scim.Repository
import Scim.Resource
import Scim.Text.Lowercase

/-!
# Stores

A store keeps the resources of one type in the order in which they were created. It guards its ids
and its natural keys itself: no two records share an id, or a key up to lower case.
-/

namespace Scim

structure Store (α : Type) where
  records : List α

inductive StoreError where
  | duplicateNaturalKey (resourceType key : String)
  | duplicateId (resourceType id : String)
  | notFound (resourceType id : String)
  | invalidResource (message : String)
  deriving DecidableEq, Repr

namespace StoreError

def message : StoreError → String
  | .duplicateNaturalKey resourceType key =>
    s!"{resourceType} with natural key '{key}' already exists"
  | .duplicateId resourceType id => s!"{resourceType} with id '{id}' already exists"
  | .notFound resourceType id => s!"{resourceType} with id '{id}' not found"
  | .invalidResource message => s!"Invalid resource: {message}"

def isUniqueness : StoreError → Bool
  | .duplicateNaturalKey _ _ => true
  | .duplicateId _ _ => true
  | _ => false

def isNotFound : StoreError → Bool
  | .notFound _ _ => true
  | _ => false

def refusal (e : StoreError) : Refusal :=
  ⟨e.message, e.isUniqueness, e.isNotFound⟩

end StoreError

namespace Store

variable {α : Type} [Resource α]

def empty : Store α :=
  ⟨[]⟩

/-- Whether a record is kept under the id. -/
def hasId (id : String) (r : α) : Bool :=
  Resource.id r == some id

/-- Whether a record has the natural key, up to lower case of the whole text. -/
def hasKey (key : String) (r : α) : Bool :=
  match Resource.naturalKey r with
  | some k => Text.lowerWhole k == Text.lowerWhole key
  | none => false

def containsId (s : Store α) (id : String) : Bool :=
  s.records.any (hasId id)

def containsKey (s : Store α) (key : String) : Bool :=
  s.records.any (hasKey key)

/-- Whether a record other than those of the id has the natural key. -/
def containsKeyBeside (s : Store α) (id key : String) : Bool :=
  s.records.any fun r => !hasId id r && hasKey key r

def keyTaken (α : Type) [Resource α] (key : String) : StoreError :=
  .duplicateNaturalKey (Resource.typeName α) key

/-- Adds a resource at the end. -/
def create (s : Store α) (r : α) : Except StoreError (Store α) :=
  match Resource.id r with
  | none =>
    .error (.invalidResource s!"{Resource.typeName α} must have an id before it is stored")
  | some id =>
    if s.containsId id then .error (.duplicateId (Resource.typeName α) id)
    else match Resource.naturalKey r with
      | some key => if s.containsKey key then .error (keyTaken α key) else .ok ⟨s.records ++ [r]⟩
      | none => .ok ⟨s.records ++ [r]⟩

def get? (s : Store α) (id : String) : Option α :=
  s.records.find? (hasId id)

/-- Puts a resource in place of the first one of the id. -/
def replaceFirst (id : String) (r : α) : List α → List α
  | [] => []
  | x :: rest => if hasId id x then r :: rest else x :: replaceFirst id r rest

/-- Overwrites the record of the id where it stands. -/
def update (s : Store α) (id : String) (r : α) : Except StoreError (Store α) :=
  let overwrite : Except StoreError (Store α) :=
    if s.containsId id then .ok ⟨replaceFirst id r s.records⟩
    else .error (.notFound (Resource.typeName α) id)
  match Resource.naturalKey r with
  | some key => if s.containsKeyBeside id key then .error (keyTaken α key) else overwrite
  | none => overwrite

def delete (s : Store α) (id : String) : Store α :=
  ⟨s.records.filter fun r => !hasId id r⟩

/-- Removes everything. -/
def clear (_ : Store α) : Store α :=
  empty

/-- Whether a record has the id, if one is given, or the natural key. -/
def exists? (s : Store α) (id : Option String) (key : String) : Bool :=
  (match id with
    | some id => s.containsId id
    | none => false) || s.containsKey key

/-- A write as a call, with a line for one that was carried out. -/
def respond (s : Store α) (outcome : Except StoreError (Store α)) (line : LogLine) :
    Response (Store α) Unit :=
  match outcome with
  | .ok t => ⟨.done (), t, [line]⟩
  | .error e => ⟨.refused e.refusal, s, []⟩

/-- The store as the repository of a service. -/
def repository (α : Type) [Resource α] : Repository (Store α) α where
  create r s :=
    s.respond (s.create r)
      ⟨.debug, s!"Storing {Resource.typeName α} '" ++ (Resource.id r).getD "" ++ "'"⟩
  getById id s := ⟨.done (s.get? id), s, []⟩
  listAll s :=
    ⟨.done s.records, s,
      [⟨.trace, "Listing " ++ countText s.records.length ++ s!" stored {Resource.typeName α}(s)"⟩]⟩
  checkExists id key s := ⟨.done (s.exists? id key), s, []⟩
  updateById id r s :=
    s.respond (s.update id r) ⟨.debug, s!"Updating {Resource.typeName α} '{id}'"⟩
  deleteById id s :=
    let existed := if s.containsId id then "true" else "false"
    s.respond (.ok (s.delete id))
      ⟨.debug, s!"Deleted {Resource.typeName α} '{id}' (existed: {existed})"⟩

end Store

end Scim
