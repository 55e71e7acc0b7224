import Scim.Patch.Apply
import Scim.Proofs.JsonEntry
import Scim.Proofs.VersionedContent

/-!
# The JSON form of patches

A patch that is written as JSON and read again is not always the same patch: an operation whose
value is `null` comes back without a value. Nothing that is made of an operation tells the two apart:
neither what it does, nor whether it fails, nor the words in which it does. So the patch that comes
back does to every resource what the patch that was sent does, and it is recognised by the schemas
with which it was sent.
-/

namespace Scim.Patch

open Record (Codec Reads)

/-! ## Operations that lack a value in different ways -/

/-- The two differ at most in how they lack a value: by having none, or by having `null`. -/
structure Operation.Alike (o o' : Operation) : Prop where
  op : o.op = o'.op
  path : o.path = o'.path
  given : o.given? = o'.given?

namespace Operation.Alike

variable {o o' : Operation}

theorem invalid (h : Alike o o') (details : String) : o.invalid details = o'.invalid details := by
  rw [Operation.invalid, Operation.invalid, h.path]

theorem wrongType (h : Alike o o') (expected : String) (found : Json) :
    o.wrongType expected found = o'.wrongType expected found :=
  h.invalid _

theorem unsupported (h : Alike o o') : o.unsupported = o'.unsupported := by
  rw [Operation.unsupported, Operation.unsupported, h.path]

theorem requireValue (h : Alike o o') : o.requireValue = o'.requireValue := by
  simp only [Operation.requireValue, h.given, h.op, h.invalid]

theorem textValue (h : Alike o o') : o.textValue = o'.textValue := by
  simp only [Operation.textValue, h.op, h.requireValue, h.wrongType]

theorem truthValue (h : Alike o o') : o.truthValue = o'.truthValue := by
  simp only [Operation.truthValue, h.op, h.requireValue, h.wrongType]

theorem listValue {α : Type} (h : Alike o o') (item : Json → Decoded α) :
    o.listValue item = o'.listValue item := by
  simp only [Operation.listValue, h.requireValue, h.wrongType, h.invalid]

/-! ### Users -/

theorem nameValue (h : Alike o o') : UserEdit.nameValue o = UserEdit.nameValue o' := by
  simp only [UserEdit.nameValue, h.op, h.requireValue, h.wrongType]

theorem emailEdit (h : Alike o o') : UserEdit.emailEdit o = UserEdit.emailEdit o' := by
  simp only [UserEdit.emailEdit, h.op, h.given, h.listValue]

theorem userEdit (h : Alike o o') : UserEdit.ofOperation o = UserEdit.ofOperation o' := by
  simp only [UserEdit.ofOperation, h.path, h.unsupported, h.textValue, h.truthValue, h.nameValue,
    h.emailEdit]

/-! ### Groups -/

theorem checkAll (h : Alike o o') (ms : List Member) :
    GroupEdit.checkAll o ms = GroupEdit.checkAll o' ms := by
  induction ms with
  | nil => rfl
  | cons m rest ih => simp only [GroupEdit.checkAll, h.invalid, ih]

theorem membersValue (h : Alike o o') : GroupEdit.membersValue o = GroupEdit.membersValue o' := by
  simp only [GroupEdit.membersValue, h.listValue, h.checkAll]

theorem memberEdit (h : Alike o o') : GroupEdit.memberEdit o = GroupEdit.memberEdit o' := by
  simp only [GroupEdit.memberEdit, h.op, h.given, h.membersValue]

theorem selectedEdit (h : Alike o o') (selector : List Char) :
    GroupEdit.selectedEdit o selector = GroupEdit.selectedEdit o' selector := by
  simp only [GroupEdit.selectedEdit, h.op, h.unsupported]

theorem groupEdit (h : Alike o o') : GroupEdit.ofOperation o = GroupEdit.ofOperation o' := by
  simp only [GroupEdit.ofOperation, h.path, h.unsupported, h.textValue, h.memberEdit,
    h.selectedEdit]

end Operation.Alike

/-- Types of resources to which operations that are alike do the same. -/
class BlindToNull (α : Type) [Patchable α] : Prop where
  edit_eq {o o' : Operation} (h : o.Alike o') :
    (Patchable.edit o : Except Fault (α → α)) = Patchable.edit o'

instance : BlindToNull User where
  edit_eq h := congrArg (Except.map UserEdit.apply) h.userEdit

instance : BlindToNull Group where
  edit_eq h := congrArg (Except.map GroupEdit.apply) h.groupEdit

section

variable {α : Type} [Patchable α] [BlindToNull α]

theorem applyOperations_alike {os os' : List Operation} (h : List.Forall₂ Operation.Alike os os')
    (r : α) : applyOperations r os = applyOperations r os' := by
  induction h generalizing r with
  | nil => rfl
  | cons first _ ih =>
    rw [applyOperations, applyOperations, applyOperation, applyOperation,
      BlindToNull.edit_eq first]
    exact bind_congr ih

end

/-! ## What is read of an operation -/

/-- The kind of an operation is written in small letters, and read in any. -/
theorem Op.codec : Codec Op.decode Op.encode := by
  refine ⟨fun o => ?_, fun o => ?_⟩
  · cases o <;> rfl
  · rw [encode, Json.sorted]
    exact nofun

namespace Operation

/-- What is read of the JSON form: the value with its keys in order, and none for `null`. -/
def received (o : Operation) : Operation :=
  { o with value := o.given?.map Json.sorted }

def slots (o : Operation) : List (String × Option Json) :=
  [("op", some o.op.encode), ("path", some (.str o.path)), ("value", o.value)]

theorem encode_eq (o : Operation) : o.encode = .obj (Json.present o.slots) := by
  simp only [encode, slots, Json.present_cons, Json.present, Encode.optional, List.append_nil]
  rfl

/-- A value is read as it is, once its keys are in order, and `null` as none. -/
theorem optional_value (o : Operation) (v : Json) (h : o.value = some v) :
    Decode.optional Decode.value v.sorted = .ok (o.given?.map Json.sorted) := by
  rw [given?, h]
  cases v with
  | obj fields =>
    rw [Json.sorted_obj]
    exact congrArg (fun w => Except.ok (some w)) (Json.sorted_obj fields).symm
  | _ => rfl

theorem reads (o : Operation) : record.Reads o.slots o.received := by
  have hfirst := (Reads.start Operation.mk).required "op" Op.codec o.op
    |>.defaulted "path" .text o.path ""
  rw [record]
  refine hfirst.field o.optional_value fun hnone => ?_
  rw [given?, hnone]
  rfl

theorem decode_encode (o : Operation) : decode o.encode.sorted = .ok o.received := by
  rw [encode_eq]
  exact o.reads.decode (by simp [slots]) "PatchOperation"

/-- The keys of every object in the value are in ascending order, each once, as they are in every
value that was read or built. -/
def InOrder (o : Operation) : Prop :=
  ∀ v, o.value = some v → v.sorted = v

theorem inOrder_received (o : Operation) : o.received.InOrder := by
  intro v hv
  obtain ⟨w, -, rfl⟩ := Option.map_eq_some_iff.mp hv
  exact w.sorted_sorted

theorem InOrder.alike {o : Operation} (h : o.InOrder) : o.received.Alike o := by
  refine ⟨rfl, rfl, ?_⟩
  obtain ⟨op, path, value⟩ := o
  cases value with
  | none => rfl
  | some v =>
    have hsorted : v.sorted = v := h v rfl
    cases v with
    | null => rfl
    | _ => simp only [received, given?, Option.map_some, hsorted]

theorem plain_encode (o : Operation) (plain : ∀ v, o.value = some v → v.Plain) :
    o.encode.Plain := by
  rw [encode_eq]
  refine Json.plain_present ?_
  simpa [slots, Op.encode, Json.Plain.str] using plain

end Operation

/-! ## What is read of a request -/

namespace Request

/-- What is read of the JSON form. -/
def received (q : Request) : Request :=
  { q with operations := q.operations.map Operation.received }

def InOrder (q : Request) : Prop :=
  ∀ o ∈ q.operations, o.InOrder

def slots (q : Request) : List (String × Option Json) :=
  [("schemas", some (Encode.texts q.schemas)),
    ("Operations", some (.arr (q.operations.map Operation.encode)))]

theorem encode_eq (q : Request) : q.encode = .obj (Json.present q.slots) :=
  rfl

/-- The operations stand first once the keys are in order. -/
theorem sorted_encode (q : Request) :
    q.encode.sorted =
      .obj [("Operations", .arr (Json.sortedItems (q.operations.map Operation.encode))),
        ("schemas", Encode.texts q.schemas)] := by
  have hlt : "Operations" < "schemas" := by decide
  rw [encode, Json.sorted_obj, Json.sortFields, Json.sortedFields_eq_map]
  simp only [List.map_cons, List.map_nil, List.foldl_cons, List.foldl_nil, Json.insertField, hlt,
    if_true, sorted_texts, Json.sorted]

theorem decode_encode (q : Request) : decode q.encode.sorted = .ok q.received := by
  have hoperations : Decode.list Operation.decode
      (.arr (Json.sortedItems (q.operations.map Operation.encode))) =
        .ok (q.operations.map Operation.received) :=
    Codec.items Operation.decode_encode q.operations
  have hschemas : Decode.list Decode.text (Encode.texts q.schemas) = .ok q.schemas := by
    rw [← sorted_texts]
    exact Codec.text.list.back q.schemas
  rw [sorted_encode, decode, Record.decode]
  simp [record, Record.defaulted, Record.field, Record.start, Record.checkNamed, Slot.answersTo,
    Source.get?, hoperations, hschemas]
  rfl

theorem inOrder_received (q : Request) : q.received.InOrder := by
  intro o ho
  obtain ⟨o, -, rfl⟩ := List.mem_map.mp ho
  exact o.inOrder_received

theorem InOrder.alike {q : Request} (h : q.InOrder) :
    List.Forall₂ Operation.Alike q.received.operations q.operations := by
  rw [received, List.forall₂_map_left_iff, List.forall₂_same]
  exact fun o ho => (h o ho).alike

/-- What is read does to every resource what the request itself does. -/
theorem InOrder.apply_received {α : Type} [Patchable α] [BlindToNull α] {q : Request}
    (h : q.InOrder) (r : α) : apply r q.received = apply r q :=
  applyOperations_alike h.alike r

/-! ### The text of a request -/

/-- The text of the form is read as the form, where the values have texts that are read back. -/
theorem read_print {q : Request} (plain : ∀ o ∈ q.operations, ∀ v, o.value = some v → v.Plain) :
    Json.read q.encode.print = some q.encode.sorted := by
  have hoperations : (Json.arr (q.operations.map Operation.encode)).Plain := by
    refine .arr fun v hv => ?_
    obtain ⟨o, ho, rfl⟩ := List.mem_map.mp hv
    exact o.plain_encode (plain o ho)
  have hencode : q.encode.Plain := by
    rw [encode_eq]
    refine Json.plain_present ?_
    simp [slots, Encode.texts, Json.plain_list, Json.Plain.str, hoperations]
  exact hencode.read_print

/-! ### Recognition -/

theorem declaredSchemas_encode (q : Request) : declaredSchemas q.encode.sorted = q.schemas := by
  rw [encode_eq]
  exact declaredSchemas_present (by simp [slots]) List.mem_cons_self

theorem schemasDisplay_encode (q : Request) :
    schemasDisplay q.encode.sorted = (Encode.texts q.schemas).compact := by
  rw [schemasDisplay, sorted_encode, Json.get?]
  rfl

/-- One of the schemas says that the message is a patch, in whatever case. -/
def IsDeclared (q : Request) : Prop :=
  ∃ s ∈ q.schemas, Text.sameLetters s schema = true

theorem isRecognized_encode (q : Request) :
    Payload.isRecognized q.encode.sorted = true ↔ q.IsDeclared := by
  rw [Payload.isRecognized, declaredSchemas_encode, List.any_eq_true]
  rfl

theorem ofJson?_declared {q : Request} (h : q.IsDeclared) :
    Payload.ofJson? q.encode.sorted = .ok (.operations q.received) := by
  rw [Payload.ofJson?, if_pos (q.isRecognized_encode.mpr h), decode_encode]
  rfl

theorem ofJson?_undeclared {q : Request} (h : ¬ q.IsDeclared) :
    Payload.ofJson? q.encode.sorted = .ok (.unrecognized (Encode.texts q.schemas).compact) := by
  rw [Payload.ofJson?, if_neg fun hrecognized => h (q.isRecognized_encode.mp hrecognized),
    schemasDisplay_encode]

end Request

/-- What of a request arrives through its JSON form means what the request means. -/
structure Crosses (q q' : Request) : Prop where
  arrives : Request.decode q.encode.sorted = .ok q'
  /-- What arrives can be passed on in the same way. -/
  inOrder : q'.InOrder
  users (u : User) : apply u q' = apply u q
  groups (g : Group) : apply g q' = apply g q
  recognized : Payload.ofJson? q.encode.sorted = .ok (.operations q') ↔ q.IsDeclared
  unrecognized : ¬ q.IsDeclared →
    Payload.ofJson? q.encode.sorted = .ok (.unrecognized (Encode.texts q.schemas).compact)
  /-- As text the form arrives, too, where the values have texts that are read back. -/
  text : (∀ o ∈ q.operations, ∀ v, o.value = some v → v.Plain) →
    Json.read q.encode.print = some q.encode.sorted

/-- Every patch, of whatever schemas and operations, arrives through its JSON form as one that means
the same. -/
theorem message_crosses {q : Request} (h : q.InOrder) : ∃ q', Crosses q q' := by
  refine ⟨q.received, ?_⟩
  exact {
    arrives := q.decode_encode
    inOrder := q.inOrder_received
    users := h.apply_received
    groups := h.apply_received
    recognized := by
      constructor
      · intro hpayload
        by_contra hdeclared
        rw [Request.ofJson?_undeclared hdeclared] at hpayload
        cases hpayload
      · exact Request.ofJson?_declared
    unrecognized := Request.ofJson?_undeclared
    text := Request.read_print }

/-- A name is replaced by its parts, and `null` stands for a title that is added and for addresses
that are removed. The schema is written in capitals. -/
def nullMessage : Request :=
  ⟨["urn:example:other", "URN:IETF:PARAMS:SCIM:API:MESSAGES:2.0:PATCHOP"],
    [.replace "name" (.obj [("familyName", .str "Ng"), ("givenName", .null)]), .add "title" .null,
      ⟨.remove, "emails", some .null⟩]⟩

theorem nullMessage_crosses : nullMessage.InOrder ∧ ∃ q', Crosses nullMessage q' ∧
    Payload.ofJson? nullMessage.encode.sorted = .ok (.operations q') := by
  have horder : nullMessage.InOrder := by
    intro o ho v hv
    simp only [nullMessage, Operation.add, Operation.replace, List.mem_cons, List.not_mem_nil,
      or_false] at ho
    rcases ho with rfl | rfl | rfl
    · cases hv
      have hlt : ¬ "givenName" < "familyName" := by decide
      simp [Json.sorted, Json.sortedFields, Json.object, Json.insertField, hlt]
    · cases hv
      rfl
    · cases hv
      rfl
  obtain ⟨q', hcrosses⟩ := message_crosses horder
  have hdeclared : nullMessage.IsDeclared :=
    ⟨"URN:IETF:PARAMS:SCIM:API:MESSAGES:2.0:PATCHOP", by simp [nullMessage], by decide +kernel⟩
  exact ⟨horder, q', hcrosses, hcrosses.recognized.mpr hdeclared⟩

end Scim.Patch
