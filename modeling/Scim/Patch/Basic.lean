import Scim.Fault
import Scim.Schema

/-!
# Patch requests

A patch request is a list of operations on attributes that are named by paths. An operation comes
with a value or without one; `null` counts as none. Here are the messages, their JSON forms, and
what an operation's value can be read as.
-/

namespace Scim.Patch

/-- The schema by which a message is known as a patch. -/
def schema : String := "urn:ietf:params:scim:api:messages:2.0:PatchOp"

inductive Op where
  | add
  | replace
  | remove
  deriving DecidableEq, Repr

namespace Op

def word : Op → String
  | .add => "add"
  | .replace => "replace"
  | .remove => "remove"

def all : List Op := [.add, .replace, .remove]

/-- The kind of operation that a word names, in any case. -/
def ofWord? (s : String) : Option Op :=
  all.find? fun o => o.word == Text.smallAscii s

/-- The text for a word that names none. -/
def unknownText (s : String) : String :=
  s!"unknown patch operation '{Text.smallAscii s}'"

def decode (v : Json) : Decoded Op := do
  let s ← Decode.text v
  match ofWord? s with
  | some o => return o
  | none => throw (.refused (unknownText s))

def encode (o : Op) : Json :=
  .str o.word

end Op

structure Operation where
  op : Op
  path : String
  value : Option Json

namespace Operation

def add (path : String) (value : Json) : Operation :=
  ⟨.add, path, some value⟩

def replace (path : String) (value : Json) : Operation :=
  ⟨.replace, path, some value⟩

def remove (path : String) : Operation :=
  ⟨.remove, path, none⟩

def record : Record Operation :=
  Record.start Operation.mk
    |>.required "op" Op.decode
    |>.defaulted "path" Decode.text ""
    |>.defaulted "value" (Decode.optional Decode.value) none

def decode : Json → Decoded Operation :=
  record.decode "PatchOperation"

def encode (o : Operation) : Json :=
  .obj <| [("op", o.op.encode), ("path", .str o.path)] ++ Encode.optional "value" o.value

/-- The value, unless it is `null`. -/
def given? (o : Operation) : Option Json :=
  match o.value with
  | some .null => none
  | v => v

/-- The fault of a value that does not suit the path. -/
def invalid (o : Operation) (details : String) : Fault :=
  .validation (.invalidPatchValue o.path details)

def wrongType (o : Operation) (expected : String) (found : Json) : Fault :=
  o.invalid s!"expected {expected}, found {found.compact}"

def unsupported (o : Operation) : Fault :=
  .unsupportedPatchPath o.path

def requireValue (o : Operation) : Except Fault Json :=
  match o.given? with
  | some v => .ok v
  | none => .error (o.invalid s!"'{o.op.word}' operation requires a value")

/-- The new text of an attribute; none when it is removed. -/
def textValue (o : Operation) : Except Fault (Option String) :=
  match o.op with
  | .remove => .ok none
  | _ => do
    match ← o.requireValue with
    | .str s => return some s
    | v => throw (o.wrongType "a string" v)

/-- A truth value, as such or as a text in any case with white space around it. -/
def truthOf? : Json → Option Bool
  | .bool b => some b
  | .str s =>
    if Text.sameLetters (Text.trim s) "true" then some true
    else if Text.sameLetters (Text.trim s) "false" then some false
    else none
  | _ => none

/-- The new truth value of an attribute; none when it is removed. -/
def truthValue (o : Operation) : Except Fault (Option Bool) :=
  match o.op with
  | .remove => .ok none
  | _ => do
    let v ← o.requireValue
    match truthOf? v with
    | some b => return some b
    | none => throw (o.wrongType "a boolean" v)

/-- The entries of a list; a single object is a list of one. -/
def listValue {α : Type} (o : Operation) (item : Json → Decoded α) : Except Fault (List α) := do
  let entries ← match ← o.requireValue with
    | .arr vs => pure vs
    | .obj fields => pure [.obj fields]
    | v => throw (o.wrongType "an object or array" v)
  match Decode.items item entries with
  | .ok xs => return xs
  | .error e => throw (o.invalid e.message)

end Operation

structure Request where
  schemas : List String
  operations : List Operation

namespace Request

def ofOperations (operations : List Operation) : Request :=
  ⟨[schema], operations⟩

/-- The operations may also be given under a small initial. -/
def record : Record Request :=
  (Record.start Request.mk |>.defaulted "schemas" (Decode.list Decode.text) [schema]).field
    "Operations" (some "operations") (Decode.list Operation.decode)
    (.error (.missingField "Operations")) none

def decode : Json → Decoded Request :=
  record.decode "PatchRequest"

def encode (q : Request) : Json :=
  .obj [("schemas", Encode.texts q.schemas),
    ("Operations", .arr (q.operations.map Operation.encode))]

end Request

/-- The body of a patch message, recognised by its schemas or not. -/
inductive Payload where
  | operations (request : Request)
  | unrecognized (schemas : String)

namespace Payload

def isRecognized (body : Json) : Bool :=
  (declaredSchemas body).any (Text.sameLetters · schema)

/-- A body that is recognised has to be well formed. -/
def ofJson? (body : Json) : Except Fault Payload :=
  if isRecognized body then (Fault.ofDecoded (Request.decode body)).map .operations
  else .ok (.unrecognized (schemasDisplay body))

end Payload

end Scim.Patch
