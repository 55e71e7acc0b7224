import Scim.Json.Printer
import Scim.Text.Quoted

/-!
# Decoding JSON values

What a typed value is read from, and every way in which that can fail. A record is given as an
object, where unknown fields are skipped and the first bad field in the order of the keys is
reported before any missing one, or as an array of its fields in the order of their declaration.
-/

namespace Scim

namespace Json

/-- What a message says was found in place of the expected value. -/
inductive Found where
  | null
  | bool (value : Bool)
  | int (value : Int)
  | float (value : Decimal.Binary64)
  | str (value : String)
  | sequence
  | map
  deriving DecidableEq, Repr

def found : Json → Found
  | .null => .null
  | .bool b => .bool b
  | .int n => .int n
  | .float x => .float x
  | .str s => .str s
  | .arr _ => .sequence
  | .obj _ => .map

/-- A word of a message between backquotes. -/
def marked (s : String) : String :=
  "\x60" ++ s ++ "\x60"

def Found.text : Found → String
  | .null => "null"
  | .bool b => "boolean " ++ marked (if b then "true" else "false")
  | .int n => "integer " ++ marked (String.ofList (intChars n))
  | .float x => "floating point " ++ marked (String.ofList (floatChars x))
  | .str s => "string " ++ Text.quoted s
  | .sequence => "sequence"
  | .map => "map"

end Json

/-- Why a value could not be decoded. -/
inductive DecodeError where
  | wrongType (found : Json.Found) (expected : String)
  | wrongValue (found : Json.Found) (expected : String)
  | missingField (name : String)
  | duplicateField (name : String)
  | unknownVariant (name : String) (known : List String)
  | wrongLength (length : Nat) (expected : String)
  /-- The text of a string was refused by the reader of what it should hold. -/
  | refused (reason : String)
  deriving DecidableEq, Repr

namespace DecodeError

def message : DecodeError → String
  | .wrongType found expected => s!"invalid type: {found.text}, expected {expected}"
  | .wrongValue found expected => s!"invalid value: {found.text}, expected {expected}"
  | .missingField name => "missing field " ++ Json.marked name
  | .duplicateField name => "duplicate field " ++ Json.marked name
  | .unknownVariant name known =>
    "unknown variant " ++ Json.marked name ++ ", expected one of " ++
      ", ".intercalate (known.map Json.marked)
  | .wrongLength length expected => s!"invalid length {length}, expected {expected}"
  | .refused reason => reason

end DecodeError

abbrev Decoded (α : Type) := Except DecodeError α

namespace Decode

def text : Json → Decoded String
  | .str s => .ok s
  | v => .error (.wrongType v.found "a string")

def boolean : Json → Decoded Bool
  | .bool b => .ok b
  | v => .error (.wrongType v.found "a boolean")

/-- A count that fits an unsigned sixty-four bit word. -/
def count : Json → Decoded Nat
  | .int n => if 0 ≤ n then .ok n.toNat else .error (.wrongValue (.int n) "usize")
  | v => .error (.wrongType v.found "usize")

def value (v : Json) : Decoded Json :=
  .ok v

/-- `null` stands for an absent value. -/
def optional {α : Type} (item : Json → Decoded α) : Json → Decoded (Option α)
  | .null => .ok none
  | v => (item v).map some

def items {α : Type} (item : Json → Decoded α) : List Json → Decoded (List α)
  | [] => .ok []
  | v :: rest => do return (← item v) :: (← items item rest)

def list {α : Type} (item : Json → Decoded α) : Json → Decoded (List α)
  | .arr vs => items item vs
  | v => .error (.wrongType v.found "a sequence")

/-- One of a set of names, as a string or as an object whose only key is the name and whose value is
`null`. -/
def variant {α : Type} (known : List (String × α)) : Json → Decoded α
  | .str s => named s
  | .obj [(s, v)] => do
    let a ← named s
    match v with
    | .null => return a
    | v => throw (.wrongType v.found "unit")
  | .obj _ => .error (.wrongValue .map "map with a single key")
  | v => .error (.wrongType v.found "string or map")
where
  named (s : String) : Decoded α :=
    match known.lookup s with
    | some a => .ok a
    | none => .error (.unknownVariant s (known.map Prod.fst))

end Decode

/-- Where the fields of a record come from. -/
inductive Source where
  | named (fields : List (String × Json))
  | listed (items : List Json)

/-- A field of a record: its name, a second spelling of it, and a test of its value alone. -/
structure Slot where
  name : String
  alternative : Option String
  check : Json → Decoded Unit

namespace Slot

def answersTo (slot : Slot) (key : String) : Bool :=
  slot.name == key || slot.alternative == some key

end Slot

namespace Source

/-- The value given for a slot, which stands at position `i` of the declaration. -/
def get? (source : Source) (slot : Slot) (i : Nat) : Option Json :=
  match source with
  | .named fields => (fields.find? fun f => slot.answersTo f.1).map Prod.snd
  | .listed items => items[i]?

end Source

/-- How the fields of an `α` are read. `gather` is given the text that names the whole record in the
error for an array that is too short. -/
structure Record (α : Type) where
  slots : List Slot
  gather : String → Source → Decoded α

namespace Record

variable {α β : Type}

def start (make : α) : Record α :=
  ⟨[], fun _ _ => .ok make⟩

/-- One more field. `absent` is the outcome when an object lacks it, `filler` the value when an
array ends before it. -/
def field (r : Record (β → α)) (name : String) (alternative : Option String)
    (item : Json → Decoded β) (absent : Decoded β) (filler : Option β) : Record α :=
  let slot : Slot := ⟨name, alternative, fun v => (item v).map fun _ => ()⟩
  { slots := r.slots ++ [slot]
    gather := fun expected source => do
      let make ← r.gather expected source
      match source.get? slot r.slots.length, source with
      | some v, _ => make <$> item v
      | none, .named _ => make <$> absent
      | none, .listed _ =>
        match filler with
        | some b => return make b
        | none => throw (.wrongLength r.slots.length expected) }

def required (r : Record (β → α)) (name : String) (item : Json → Decoded β) : Record α :=
  r.field name none item (.error (.missingField name)) none

def optional (r : Record (Option β → α)) (name : String) (item : Json → Decoded β) : Record α :=
  r.field name none (Decode.optional item) (.ok none) none

def defaulted (r : Record (β → α)) (name : String) (item : Json → Decoded β) (value : β) :
    Record α :=
  r.field name none item (.ok value) (some value)

/-- Tests the fields of an object in the order in which they stand. -/
def checkNamed (slots : List Slot) (seen : List String) : List (String × Json) → Decoded Unit
  | [] => .ok ()
  | (key, v) :: rest =>
    match slots.find? (·.answersTo key) with
    | none => checkNamed slots seen rest
    | some slot =>
      if slot.name ∈ seen then .error (.duplicateField slot.name)
      else do
        slot.check v
        checkNamed slots (slot.name :: seen) rest

def sizeText (name : String) (n : Nat) : String :=
  if n = 1 then s!"struct {name} with 1 element" else s!"struct {name} with {n} elements"

def decode (r : Record α) (name : String) : Json → Decoded α
  | .obj fields => do
    checkNamed r.slots [] fields
    r.gather (sizeText name r.slots.length) (.named fields)
  | .arr items => do
    let x ← r.gather (sizeText name r.slots.length) (.listed items)
    if r.slots.length < items.length then
      throw (.wrongLength items.length "fewer elements in array")
    return x
  | v => .error (.wrongType v.found ("struct " ++ name))

end Record

namespace Encode

/-- A field that is left out when absent. -/
def optional (name : String) (value : Option Json) : List (String × Json) :=
  match value with
  | some v => [(name, v)]
  | none => []

def text (name : String) (value : Option String) : List (String × Json) :=
  optional name (value.map .str)

def texts (values : List String) : Json :=
  .arr (values.map .str)

end Encode

end Scim
