import Mathlib.Data.List.Nodup
import Mathlib.Data.String.Basic
import Scim.Json.Decoding
import Scim.Proofs.Fallible

/-!
# Records in JSON

A record that is written as an object and read again is the same record, provided that each of its
fields is read back as it was written. The keys of the object are sorted in between, which changes
the order of its fields and nothing else.
-/

namespace Scim

namespace Json

/-- The fields of an object, out of slots that may be empty. -/
def present : List (String × Option Json) → List (String × Json)
  | [] => []
  | (key, some v) :: rest => (key, v) :: present rest
  | (_, none) :: rest => present rest

/-- The fields of the sorted object. -/
def sortFields (fields : List (String × Json)) : List (String × Json) :=
  (sortedFields fields).foldl (fun sorted f => insertField f.1 f.2 sorted) []

theorem present_cons (key : String) (value : Option Json) (rest : List (String × Option Json)) :
    present ((key, value) :: rest) = Encode.optional key value ++ present rest := by
  cases value with
  | none => rfl
  | some v => rfl

theorem sorted_obj (fields : List (String × Json)) :
    (Json.obj fields).sorted = .obj (sortFields fields) := by
  rw [sorted]
  rfl

/-! ## Sorting the keys -/

theorem insertField_perm {key : String} {value : Json} {fields : List (String × Json)}
    (h : key ∉ fields.map Prod.fst) : (insertField key value fields).Perm ((key, value) :: fields) := by
  induction fields with
  | nil => exact .refl _
  | cons f rest ih =>
    obtain ⟨k, v⟩ := f
    rw [List.map_cons, List.mem_cons, not_or] at h
    rw [insertField]
    by_cases hlt : key < k
    · rw [if_pos hlt]
    · rw [if_neg hlt, if_neg h.1]
      exact ((ih h.2).cons (k, v)).trans (.swap (key, value) (k, v) rest)

theorem foldl_insertField_perm {fields sorted : List (String × Json)}
    (h : ((fields ++ sorted).map Prod.fst).Nodup) :
    (fields.foldl (fun sorted f => insertField f.1 f.2 sorted) sorted).Perm (fields ++ sorted) := by
  induction fields generalizing sorted with
  | nil => exact .refl _
  | cons f rest ih =>
    have hmiddle : (rest ++ f :: sorted).Perm (f :: rest ++ sorted) := List.perm_middle
    have hnodup : ((rest ++ f :: sorted).map Prod.fst).Nodup :=
      (hmiddle.map Prod.fst).nodup_iff.mpr h
    have hfresh : f.1 ∉ sorted.map Prod.fst := by
      rw [List.map_append, List.map_cons, List.nodup_middle, List.nodup_cons] at hnodup
      exact fun hmem => hnodup.1 (List.mem_append_right _ hmem)
    have hinsert : (insertField f.1 f.2 sorted).Perm (f :: sorted) := insertField_perm hfresh
    rw [List.foldl_cons]
    have hnodup' : ((rest ++ insertField f.1 f.2 sorted).map Prod.fst).Nodup :=
      ((hinsert.append_left rest).map Prod.fst).nodup_iff.mpr hnodup
    exact (ih hnodup').trans ((hinsert.append_left rest).trans hmiddle)

theorem sortedFields_eq_map (fields : List (String × Json)) :
    sortedFields fields = fields.map fun f => (f.1, f.2.sorted) := by
  induction fields with
  | nil => rfl
  | cons f rest ih => rw [sortedFields, ih, List.map_cons]

theorem sortedItems_eq_map (items : List Json) : sortedItems items = items.map sorted := by
  induction items with
  | nil => rfl
  | cons v rest ih => rw [sortedItems, ih, List.map_cons]

theorem sortFields_perm {fields : List (String × Json)} (h : (fields.map Prod.fst).Nodup) :
    (sortFields fields).Perm (fields.map fun f => (f.1, f.2.sorted)) := by
  rw [sortFields, sortedFields_eq_map]
  refine (foldl_insertField_perm ?_).trans (List.append_nil _ ▸ .refl _)
  rw [List.append_nil, List.map_map]
  exact h

/-! ## Sorted values -/

/-- The keys stand in ascending order, each once. -/
def Ascending (fields : List (String × Json)) : Prop :=
  fields.Pairwise fun f g => f.1 < g.1

theorem mem_insertField {key : String} {value : Json} {fields : List (String × Json)}
    {f : String × Json} (h : f ∈ insertField key value fields) : f = (key, value) ∨ f ∈ fields := by
  induction fields with
  | nil => exact .inl (List.mem_singleton.mp h)
  | cons g rest ih =>
    rw [insertField] at h
    split at h
    · exact List.mem_cons.mp h
    · split at h
      · exact (List.mem_cons.mp h).imp_right (List.mem_cons_of_mem _)
      · rcases List.mem_cons.mp h with rfl | h
        · exact .inr List.mem_cons_self
        · exact (ih h).imp_right (List.mem_cons_of_mem _)

theorem Ascending.insertField {fields : List (String × Json)} (h : Ascending fields) (key : String)
    (value : Json) : Ascending (insertField key value fields) := by
  induction fields with
  | nil => exact List.pairwise_singleton _ _
  | cons f rest ih =>
    obtain ⟨k, v⟩ := f
    obtain ⟨hfirst, hrest⟩ := List.pairwise_cons.mp h
    rw [Json.insertField]
    by_cases hlt : key < k
    · rw [if_pos hlt]
      refine List.pairwise_cons.mpr ⟨fun g hg => ?_, h⟩
      rcases List.mem_cons.mp hg with rfl | hg
      · exact hlt
      · exact hlt.trans (hfirst g hg)
    · rw [if_neg hlt]
      by_cases heq : key = k
      · subst heq
        rw [if_pos rfl]
        exact List.pairwise_cons.mpr ⟨hfirst, hrest⟩
      · rw [if_neg heq]
        refine List.pairwise_cons.mpr ⟨fun g hg => ?_, ih hrest⟩
        rcases mem_insertField hg with rfl | hg
        · exact lt_of_le_of_ne (not_lt.mp hlt) (Ne.symm heq)
        · exact hfirst g hg

theorem ascending_foldl_insertField {fields sorted : List (String × Json)} (h : Ascending sorted) :
    Ascending (fields.foldl (fun sorted f => insertField f.1 f.2 sorted) sorted) := by
  induction fields generalizing sorted with
  | nil => exact h
  | cons f rest ih => exact ih (h.insertField f.1 f.2)

theorem mem_foldl_insertField {fields sorted : List (String × Json)} {f : String × Json}
    (h : f ∈ fields.foldl (fun sorted f => insertField f.1 f.2 sorted) sorted) :
    f ∈ fields ∨ f ∈ sorted := by
  induction fields generalizing sorted with
  | nil => exact .inr h
  | cons g rest ih =>
    rcases ih h with h | h
    · exact .inl (List.mem_cons_of_mem _ h)
    · rcases mem_insertField h with rfl | h
      · exact .inl List.mem_cons_self
      · exact .inr h

/-- A field whose key exceeds the others goes to the end. -/
theorem insertField_last {key : String} {value : Json} {fields : List (String × Json)}
    (h : ∀ f ∈ fields, f.1 < key) : insertField key value fields = fields ++ [(key, value)] := by
  induction fields with
  | nil => rfl
  | cons f rest ih =>
    have hf : f.1 < key := h f List.mem_cons_self
    rw [insertField, if_neg hf.asymm, if_neg hf.ne', ih fun g hg => h g (List.mem_cons_of_mem _ hg),
      List.cons_append]

theorem foldl_insertField_ascending {fields sorted : List (String × Json)}
    (h : Ascending (sorted ++ fields)) :
    fields.foldl (fun sorted f => insertField f.1 f.2 sorted) sorted = sorted ++ fields := by
  induction fields generalizing sorted with
  | nil => rw [List.foldl_nil, List.append_nil]
  | cons f rest ih =>
    have hlast : ∀ g ∈ sorted, g.1 < f.1 := fun g hg =>
      (List.pairwise_append.mp h).2.2 g hg f List.mem_cons_self
    rw [List.append_cons] at h
    rw [List.foldl_cons, insertField_last hlast, ih h, List.append_cons sorted f rest]

/-- Sorting once more changes nothing where the values do not change. -/
theorem sortFields_sortFields {fields : List (String × Json)}
    (h : ∀ f ∈ fields, f.2.sorted.sorted = f.2.sorted) :
    sortFields (sortFields fields) = sortFields fields := by
  have hascending : Ascending (sortFields fields) :=
    ascending_foldl_insertField List.Pairwise.nil
  have hvalues : sortedFields (sortFields fields) = sortFields fields := by
    rw [sortedFields_eq_map]
    refine (List.map_congr_left fun f hf => ?_).trans (List.map_id _)
    rcases mem_foldl_insertField hf with hf | hf
    · rw [sortedFields_eq_map] at hf
      obtain ⟨g, hg, rfl⟩ := List.mem_map.mp hf
      exact Prod.ext rfl (h g hg)
    · cases hf
  exact (congrArg _ hvalues).trans (foldl_insertField_ascending hascending)

mutual

/-- A value that is sorted is in order throughout. -/
theorem sorted_sorted : (v : Json) → v.sorted.sorted = v.sorted
  | .arr items => by
    rw [sorted, sorted, sortedItems_eq_map, sortedItems_eq_map, List.map_map]
    exact congrArg arr (List.map_congr_left (sorted_sorted_items items))
  | .obj fields => by
    rw [sorted_obj, sorted_obj, sortFields_sortFields (sorted_sorted_fields fields)]
  | .null | .bool _ | .int _ | .float _ | .str _ => by simp only [sorted]

theorem sorted_sorted_items : (items : List Json) → ∀ v ∈ items, v.sorted.sorted = v.sorted
  | [] => nofun
  | v :: rest => List.forall_mem_cons.mpr ⟨sorted_sorted v, sorted_sorted_items rest⟩

theorem sorted_sorted_fields :
    (fields : List (String × Json)) → ∀ f ∈ fields, f.2.sorted.sorted = f.2.sorted
  | [] => nofun
  | (_, v) :: rest => List.forall_mem_cons.mpr ⟨sorted_sorted v, sorted_sorted_fields rest⟩

end

/-! ## Looking fields up -/

theorem lookup_eq_some_iff {β : Type} {fields : List (String × β)} (h : (fields.map Prod.fst).Nodup)
    {key : String} {v : β} : fields.lookup key = some v ↔ (key, v) ∈ fields := by
  induction fields with
  | nil => simp
  | cons f rest ih =>
    obtain ⟨k, w⟩ := f
    rw [List.map_cons, List.nodup_cons] at h
    rw [List.lookup_cons]
    by_cases hk : key = k
    · subst hk
      have habsent : (key, v) ∉ rest := fun hmem => h.1 (List.mem_map.mpr ⟨(key, v), hmem, rfl⟩)
      simp [habsent, eq_comm]
    · have hne : (key == k) = false := beq_eq_false_iff_ne.mpr hk
      simp [hne, hk, ih h.2]

theorem present_keys_sublist (slots : List (String × Option Json)) :
    ((present slots).map Prod.fst).Sublist (slots.map Prod.fst) := by
  induction slots with
  | nil => exact .slnil
  | cons slot rest ih =>
    obtain ⟨key, value⟩ := slot
    cases value with
    | some v => exact ih.cons_cons key
    | none => exact ih.cons key

theorem mem_present_iff {slots : List (String × Option Json)} {key : String} {v : Json} :
    (key, v) ∈ present slots ↔ (key, some v) ∈ slots := by
  induction slots with
  | nil => simp [present]
  | cons slot rest ih =>
    obtain ⟨k, value⟩ := slot
    cases value with
    | some w => simp [present, ih]
    | none => simp [present, ih]

theorem nodup_sortFields_present {slots : List (String × Option Json)}
    (h : (slots.map Prod.fst).Nodup) :
    ((sortFields (present slots)).map Prod.fst).Nodup := by
  have hkeys : ((present slots).map Prod.fst).Nodup := h.sublist (present_keys_sublist slots)
  refine ((sortFields_perm hkeys).map Prod.fst).nodup_iff.mpr ?_
  rw [List.map_map]
  exact hkeys

/-- The slot of a key in the sorted object. -/
theorem lookup_sortFields_present {slots : List (String × Option Json)}
    (h : (slots.map Prod.fst).Nodup) {key : String} {value : Option Json}
    (hslot : (key, value) ∈ slots) :
    (sortFields (present slots)).lookup key = value.map sorted := by
  have hkeys : ((present slots).map Prod.fst).Nodup := h.sublist (present_keys_sublist slots)
  have hperm := sortFields_perm hkeys
  apply Option.ext
  intro v
  rw [lookup_eq_some_iff (nodup_sortFields_present h), hperm.mem_iff, List.mem_map]
  constructor
  · rintro ⟨⟨k, w⟩, hw, heq⟩
    cases heq
    have hvalue := List.inj_on_of_nodup_map h (mem_present_iff.mp hw) hslot rfl
    cases hvalue
    rfl
  · intro hv
    obtain ⟨w, rfl, rfl⟩ := Option.map_eq_some_iff.mp hv
    exact ⟨(key, w), mem_present_iff.mpr hslot, rfl⟩

end Json

/-! ## Reading a record -/

theorem Source.get?_named {fields : List (String × Json)} {slot : Slot}
    (h : slot.alternative = none) (i : Nat) :
    (Source.named fields).get? slot i = fields.lookup slot.name := by
  rw [get?]
  induction fields with
  | nil => rfl
  | cons f rest ih =>
    obtain ⟨k, v⟩ := f
    rw [List.find?_cons, List.lookup_cons]
    have hanswers : slot.answersTo k = (slot.name == k) := by simp [Slot.answersTo, h]
    rw [hanswers]
    cases slot.name == k with
    | true => rfl
    | false => exact ih

namespace Record

variable {α β : Type}

/-- The object gives this value to the record: each of its fields passes the test of its slot, and
together they make the value. -/
structure Gives (r : Record α) (fields : List (String × Json)) (x : α) : Prop where
  plain : ∀ slot ∈ r.slots, slot.alternative = none
  checks : ∀ slot ∈ r.slots, ∀ v, fields.lookup slot.name = some v → slot.check v = .ok ()
  gathers : ∀ expected, r.gather expected (.named fields) = .ok x

theorem checkNamed_ok {slots : List Slot} {seen : List String} {fields : List (String × Json)}
    (plain : ∀ slot ∈ slots, slot.alternative = none) (nodup : (fields.map Prod.fst).Nodup)
    (fresh : ∀ key ∈ fields.map Prod.fst, key ∉ seen)
    (checks : ∀ slot ∈ slots, ∀ v, (slot.name, v) ∈ fields → slot.check v = .ok ()) :
    checkNamed slots seen fields = .ok () := by
  induction fields generalizing seen with
  | nil => rfl
  | cons f rest ih =>
    obtain ⟨key, v⟩ := f
    rw [List.map_cons, List.nodup_cons] at nodup
    have hrest (slot : Slot) (hslot : slot ∈ slots) (w : Json) (hw : (slot.name, w) ∈ rest) :
        slot.check w = .ok () := checks slot hslot w (List.mem_cons_of_mem _ hw)
    rw [checkNamed]
    cases hfind : slots.find? (·.answersTo key) with
    | none => exact ih nodup.2 (fun k hk => fresh k (List.mem_cons_of_mem _ hk)) hrest
    | some slot =>
      have hslot := List.mem_of_find?_eq_some hfind
      have hname : slot.name = key := by
        have hanswers := List.find?_some hfind
        simpa [Slot.answersTo, plain slot hslot] using hanswers
      have hunseen : slot.name ∉ seen := hname ▸ fresh key List.mem_cons_self
      have hcheck : slot.check v = .ok () := checks slot hslot v (by rw [hname]; exact .head _)
      simp only [hunseen, if_false, hcheck]
      refine ih nodup.2 (fun k hk hmem => ?_) hrest
      rcases List.mem_cons.mp hmem with rfl | hmem
      · exact nodup.1 (hname ▸ hk)
      · exact fresh k (List.mem_cons_of_mem _ hk) hmem

theorem Gives.decode {r : Record α} {fields : List (String × Json)} {x : α}
    (h : r.Gives fields x) (nodup : (fields.map Prod.fst).Nodup) (name : String) :
    r.decode name (.obj fields) = .ok x := by
  have hchecked : checkNamed r.slots [] fields = .ok () :=
    checkNamed_ok h.plain nodup (fun _ _ => List.not_mem_nil) fun slot hslot v hv =>
      h.checks slot hslot v ((Json.lookup_eq_some_iff nodup).mpr hv)
  rw [Record.decode, hchecked]
  exact h.gathers _

/-- Whatever sorted object holds these slots gives this value to the record. -/
def Reads (r : Record α) (slots : List (String × Option Json)) (x : α) : Prop :=
  ∀ fields : List (String × Json),
    (∀ slot ∈ slots, fields.lookup slot.1 = slot.2.map Json.sorted) → r.Gives fields x

/-- Values are read back from their sorted JSON form, which is never `null`. -/
structure Codec (item : Json → Decoded β) (encode : β → Json) : Prop where
  back : ∀ b, item (encode b).sorted = .ok b
  solid : ∀ b, (encode b).sorted ≠ .null

namespace Reads

theorem start (make : α) : (Record.start make).Reads [] make :=
  fun _ _ => ⟨nofun, nofun, fun _ => rfl⟩

/-- One more field: its slot holds it, or is empty where that stands for it. -/
theorem field {r : Record (β → α)} {slots : List (String × Option Json)} {f : β → α}
    (h : r.Reads slots f) {name : String} {item : Json → Decoded β} {absent : Decoded β}
    {filler : Option β} {value : Option Json} {b : β}
    (filled : ∀ v, value = some v → item v.sorted = .ok b)
    (empty : value = none → absent = .ok b) :
    (r.field name none item absent filler).Reads (slots ++ [(name, value)]) (f b) := by
  intro fields hfields
  obtain ⟨plain, checks, gathers⟩ := h fields fun slot hslot =>
    hfields slot (List.mem_append_left _ hslot)
  have hvalue : fields.lookup name = value.map Json.sorted :=
    hfields (name, value) (List.mem_append_right _ List.mem_cons_self)
  have hlookup (i : Nat) :
      (Source.named fields).get? ⟨name, none, fun v => (item v).map fun _ => ()⟩ i =
        value.map Json.sorted := (Source.get?_named rfl i).trans hvalue
  refine ⟨?_, ?_, fun expected => ?_⟩
  · intro slot hslot
    rcases List.mem_append.mp hslot with hslot | hslot
    · exact plain slot hslot
    · rw [List.mem_singleton.mp hslot]
  · intro slot hslot v hv
    rcases List.mem_append.mp hslot with hslot | hslot
    · exact checks slot hslot v hv
    · rw [List.mem_singleton.mp hslot] at hv ⊢
      obtain ⟨w, hw, rfl⟩ := Option.map_eq_some_iff.mp (hvalue.symm.trans hv)
      exact congrArg (Except.map fun _ => ()) (filled w hw)
  · simp only [Record.field, gathers expected, hlookup]
    cases hv : value with
    | none =>
      rw [empty hv]
      rfl
    | some v =>
      change (f <$> item v.sorted) = _
      rw [filled v hv]
      rfl

theorem required {r : Record (β → α)} {slots : List (String × Option Json)} {f : β → α}
    (h : r.Reads slots f) (name : String) {item : Json → Decoded β} {encode : β → Json}
    (codec : Codec item encode) (b : β) :
    (r.required name item).Reads (slots ++ [(name, some (encode b))]) (f b) := by
  refine h.field (fun v hv => ?_) nofun
  cases hv
  exact codec.back b

/-- A field that is absent where it is left out or `null`. -/
theorem optionalField {r : Record (Option β → α)} {slots : List (String × Option Json)}
    {f : Option β → α} (h : r.Reads slots f) (name : String) {item : Json → Decoded β}
    {encode : β → Json} (codec : Codec item encode) (filler : Option (Option β)) (b : Option β) :
    (r.field name none (Decode.optional item) (.ok none) filler).Reads
      (slots ++ [(name, b.map encode)]) (f b) := by
  refine h.field (fun v hv => ?_) fun hnone => ?_
  · obtain ⟨a, rfl, rfl⟩ := Option.map_eq_some_iff.mp hv
    rw [Decode.optional.eq_2 _ _ (codec.solid a), codec.back a]
    rfl
  · rw [Option.map_eq_none_iff.mp hnone]

theorem optional {r : Record (Option β → α)} {slots : List (String × Option Json)}
    {f : Option β → α} (h : r.Reads slots f) (name : String) {item : Json → Decoded β}
    {encode : β → Json} (codec : Codec item encode) (b : Option β) :
    (r.optional name item).Reads (slots ++ [(name, b.map encode)]) (f b) :=
  h.optionalField name codec none b

/-- A field that an array, too, may leave out. -/
theorem omittable {r : Record (Option β → α)} {slots : List (String × Option Json)}
    {f : Option β → α} (h : r.Reads slots f) (name : String) {item : Json → Decoded β}
    {encode : β → Json} (codec : Codec item encode) (b : Option β) :
    (r.defaulted name (Decode.optional item) none).Reads (slots ++ [(name, b.map encode)]) (f b) :=
  h.optionalField name codec (some none) b

theorem defaulted {r : Record (β → α)} {slots : List (String × Option Json)} {f : β → α}
    (h : r.Reads slots f) (name : String) {item : Json → Decoded β} {encode : β → Json}
    (codec : Codec item encode) (b value : β) :
    (r.defaulted name item value).Reads (slots ++ [(name, some (encode b))]) (f b) := by
  refine h.field (fun v hv => ?_) nofun
  cases hv
  exact codec.back b

/-- A list that is left out where it is empty. -/
theorem unlessEmpty {γ : Type} {r : Record (List γ → α)} {slots : List (String × Option Json)}
    {f : List γ → α} (h : r.Reads slots f) (name : String) {item : Json → Decoded (List γ)}
    {encode : List γ → Json} (codec : Codec item encode) (bs : List γ) :
    (r.defaulted name item []).Reads
      (slots ++ [(name, if bs.isEmpty then none else some (encode bs))]) (f bs) := by
  refine h.field (fun v hv => ?_) fun hnone => ?_
  · split at hv
    · cases hv
    · cases hv
      exact codec.back bs
  · split at hnone
    · next hempty => rw [List.isEmpty_iff.mp hempty]
    · cases hnone

/-- A record is read back from the sorted object of its slots. -/
theorem decode {r : Record α} {slots : List (String × Option Json)} {x : α}
    (h : r.Reads slots x) (nodup : (slots.map Prod.fst).Nodup) (name : String) :
    r.decode name (Json.obj (Json.present slots)).sorted = .ok x := by
  rw [Json.sorted_obj]
  refine (h _ fun slot hslot => ?_).decode (Json.nodup_sortFields_present nodup) name
  exact Json.lookup_sortFields_present nodup hslot

end Reads

namespace Codec

theorem text : Codec Decode.text Json.str :=
  ⟨fun _ => rfl, nofun⟩

theorem boolean : Codec Decode.boolean Json.bool :=
  ⟨fun _ => rfl, nofun⟩

theorem count : Codec Decode.count fun n : Nat => .int n := by
  refine ⟨fun n => ?_, nofun⟩
  have hnonneg : (0 : Int) ≤ n := by omega
  rw [Json.sorted, Decode.count, if_pos hnonneg, Int.toNat_natCast]

/-- Whatever is read of each of the values, a list of them is read as the list of that. -/
theorem items {γ : Type} {item : Json → Decoded γ} {encode : β → Json} {f : β → γ}
    (back : ∀ b, item (encode b).sorted = .ok (f b)) (bs : List β) :
    Decode.items item (Json.sortedItems (bs.map encode)) = .ok (bs.map f) := by
  induction bs with
  | nil => rfl
  | cons b rest ih =>
    rw [List.map_cons, Json.sortedItems, Decode.items, back b, ih]
    rfl

theorem list {item : Json → Decoded β} {encode : β → Json} (codec : Codec item encode) :
    Codec (Decode.list item) fun bs => .arr (bs.map encode) :=
  ⟨fun bs => (items (f := id) codec.back bs).trans (by rw [List.map_id]), nofun⟩

/-- A record is its own codec where its form is the object of its slots. -/
theorem record {r : Record β} {slots : β → List (String × Option Json)} {encode : β → Json}
    (form : ∀ b, encode b = .obj (Json.present (slots b)))
    (reads : ∀ b, r.Reads (slots b) b) (nodup : ∀ b, ((slots b).map Prod.fst).Nodup)
    (name : String) : Codec (r.decode name) encode := by
  refine ⟨fun b => ?_, fun b => ?_⟩
  · rw [form b]
    exact (reads b).decode (nodup b) name
  · rw [form b, Json.sorted_obj]
    exact nofun

end Codec

end Record

end Scim
