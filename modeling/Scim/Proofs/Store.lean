import Mathlib.Data.List.Nodup
import Scim.Store

/-!
# Stores in order

The invariant of a store: every record has an id, no two records share one, and no two share a
natural key up to lower case. The writes of a store keep it. An overwritten record stays where it
was, which the laws of `replaceFirst` say in terms of the records before and after it.
-/

namespace Scim.Store

variable {α : Type} [Resource α]

/-- The natural key of a record as the store compares it. -/
def foldedKey (r : α) : Option String :=
  (Resource.naturalKey r).map Text.lowerWhole

structure Kept (s : Store α) : Prop where
  has_id : ∀ r ∈ s.records, ∃ id, Resource.id r = some id
  ids : (s.records.map Resource.id).Nodup
  keys : (s.records.filterMap foldedKey).Nodup

/-- The records of all other ids, in their order. -/
def beside (s : Store α) (id : String) : List α :=
  s.records.filter fun r => !hasId id r

theorem hasId_iff {id : String} {r : α} : hasId id r = true ↔ Resource.id r = some id := by
  simp only [hasId, beq_iff_eq]

theorem hasKey_iff {key : String} {r : α} :
    hasKey key r = true ↔ foldedKey r = some (Text.lowerWhole key) := by
  cases h : Resource.naturalKey r with
  | none => simp [hasKey, foldedKey, h]
  | some k => simp [hasKey, foldedKey, h]

theorem hasKey_of_naturalKey {key : String} {r : α} (h : Resource.naturalKey r = some key) :
    hasKey key r = true := by
  rw [hasKey, h]
  exact beq_self_eq_true _

theorem containsId_iff {s : Store α} {id : String} :
    s.containsId id = true ↔ some id ∈ s.records.map Resource.id := by
  simp only [containsId, List.any_eq_true, hasId_iff, List.mem_map]

theorem containsKey_iff {s : Store α} {key : String} :
    s.containsKey key = true ↔ Text.lowerWhole key ∈ s.records.filterMap foldedKey := by
  simp only [containsKey, List.any_eq_true, hasKey_iff, List.mem_filterMap]

theorem get?_eq_some {s : Store α} {id : String} {r : α} (h : s.get? id = some r) :
    r ∈ s.records ∧ Resource.id r = some id :=
  ⟨List.mem_of_find?_eq_some h, hasId_iff.mp (List.find?_some h)⟩

theorem get?_eq_none_iff {s : Store α} {id : String} :
    s.get? id = none ↔ s.containsId id = false := by
  simp [get?, containsId]

theorem containsId_of_get? {s : Store α} {id : String} {r : α} (h : s.get? id = some r) :
    s.containsId id = true := by
  obtain ⟨hr, hid⟩ := get?_eq_some h
  exact containsId_iff.mpr (List.mem_map.mpr ⟨r, hr, hid⟩)

/-! ## Writes that are not refused -/

theorem create_ok_iff {s t : Store α} {r : α} :
    s.create r = .ok t ↔ ∃ id, Resource.id r = some id ∧ s.containsId id = false ∧
      (∀ key, Resource.naturalKey r = some key → s.containsKey key = false) ∧
      t = ⟨s.records ++ [r]⟩ := by
  cases hid : Resource.id r with
  | none => simp [create, hid]
  | some id =>
    cases hcontains : s.containsId id with
    | true => simp [create, hid, hcontains]
    | false =>
      cases hkey : Resource.naturalKey r with
      | none => simp [create, hid, hcontains, hkey, @eq_comm _ t]
      | some key =>
        cases htaken : s.containsKey key with
        | true => simp [create, hid, hcontains, hkey, htaken]
        | false => simp [create, hid, hcontains, hkey, htaken, @eq_comm _ t]

theorem update_ok_iff {s t : Store α} {id : String} {r : α} :
    s.update id r = .ok t ↔ s.containsId id = true ∧
      (∀ key, Resource.naturalKey r = some key → s.containsKeyBeside id key = false) ∧
      t = ⟨replaceFirst id r s.records⟩ := by
  cases hcontains : s.containsId id with
  | false =>
    cases hkey : Resource.naturalKey r with
    | none => simp [update, hcontains, hkey]
    | some key => cases htaken : s.containsKeyBeside id key <;> simp [update, hcontains, hkey, htaken]
  | true =>
    cases hkey : Resource.naturalKey r with
    | none => simp [update, hcontains, hkey, @eq_comm _ t]
    | some key =>
      cases htaken : s.containsKeyBeside id key with
      | true => simp [update, hkey, htaken]
      | false => simp [update, hcontains, hkey, htaken, @eq_comm _ t]

/-! ## Overwriting -/

/-- The first record of an id, what stands before it and what after it. -/
theorem records_split {s : Store α} {id : String} {r : α} (h : s.get? id = some r) :
    ∃ front back, s.records = front ++ r :: back ∧ ∀ x ∈ front, hasId id x = false := by
  obtain ⟨_, front, back, heq, hfront⟩ := List.find?_eq_some_iff_append.mp h
  refine ⟨front, back, heq, ?_⟩
  intro x hx
  simpa using hfront x hx

theorem replaceFirst_append {id : String} {r x : α} {front back : List α}
    (hfront : ∀ y ∈ front, hasId id y = false) (hx : hasId id x = true) :
    replaceFirst id r (front ++ x :: back) = front ++ r :: back := by
  induction front with
  | nil => simp only [List.nil_append, replaceFirst, hx, if_true]
  | cons y rest ih =>
    have hy : hasId id y = false := hfront y List.mem_cons_self
    have hrest := ih fun z hz => hfront z (List.mem_cons_of_mem y hz)
    simp only [List.cons_append, replaceFirst, hy, Bool.false_eq_true, if_false, hrest]

theorem replaceFirst_of_get? {s : Store α} {id : String} {x : α} (h : s.get? id = some x) (r : α) :
    ∃ front back, s.records = front ++ x :: back ∧
      replaceFirst id r s.records = front ++ r :: back ∧ ∀ y ∈ front, hasId id y = false := by
  obtain ⟨front, back, heq, hfront⟩ := records_split h
  refine ⟨front, back, heq, ?_, hfront⟩
  rw [heq]
  exact replaceFirst_append hfront (hasId_iff.mpr (get?_eq_some h).2)

theorem beside_replaceFirst {s : Store α} {id : String} {x r : α} (h : s.get? id = some x)
    (hr : Resource.id r = some id) : beside ⟨replaceFirst id r s.records⟩ id = beside s id := by
  obtain ⟨front, back, heq, hnew, _⟩ := replaceFirst_of_get? h r
  have hx := (get?_eq_some h).2
  rw [beside, beside, hnew, heq]
  simp [hasId_iff.mpr hx, hasId_iff.mpr hr]

theorem beside_delete (s : Store α) (id : String) : (s.delete id).beside id = s.beside id := by
  simp only [beside, delete, List.filter_filter, Bool.and_self]

theorem beside_append {s : Store α} {id : String} {r : α} (hr : Resource.id r = some id) :
    beside ⟨s.records ++ [r]⟩ id = beside s id := by
  simp [beside, hasId_iff.mpr hr]

/-! ## The first record of an id after a write -/

theorem get?_replaceFirst_self {s : Store α} {id : String} {x r : α} (h : s.get? id = some x)
    (hr : Resource.id r = some id) : get? ⟨replaceFirst id r s.records⟩ id = some r := by
  obtain ⟨front, back, _, hnew, hfront⟩ := replaceFirst_of_get? h r
  have hnone : front.find? (hasId id) = none := by
    simpa [List.find?_eq_none] using hfront
  simp [get?, hnew, List.find?_append, hnone, hasId_iff.mpr hr]

/-- Records of another id are found as before where the records beside some id are as before. -/
theorem get?_of_beside {s t : Store α} {id other : String} (h : t.beside id = s.beside id)
    (hne : other ≠ id) : t.get? other = s.get? other := by
  have found (u : Store α) : (u.beside id).find? (hasId other) = u.get? other := by
    rw [beside, List.find?_filter]
    apply congrArg (List.find? · u.records)
    funext r
    by_cases hr : hasId other r = true
    · have hid : Resource.id r = some other := hasId_iff.mp hr
      have hnot : hasId id r = false := by
        rw [← Bool.not_eq_true, hasId_iff, hid]
        exact fun heq => hne (Option.some.inj heq)
      simp [hr, hnot]
    · simp [hr]
  rw [← found t, ← found s, h]

/-! ## Keeping the invariant -/

theorem kept_empty : Kept (empty : Store α) :=
  ⟨fun _ h => (by cases h), List.nodup_nil, List.nodup_nil⟩

theorem Kept.append {s : Store α} (h : Kept s) {r : α} {id : String}
    (hid : Resource.id r = some id) (hnew : s.containsId id = false)
    (hkey : ∀ key, Resource.naturalKey r = some key → s.containsKey key = false) :
    Kept ⟨s.records ++ [r]⟩ := by
  refine ⟨?_, ?_, ?_⟩
  · intro x hx
    rcases List.mem_append.mp hx with hx | hx
    · exact h.has_id x hx
    · rw [List.mem_singleton.mp hx]
      exact ⟨id, hid⟩
  · have habsent : some id ∉ s.records.map Resource.id := by
      rw [← containsId_iff, hnew]
      exact Bool.false_ne_true
    rw [List.map_append, List.map_singleton, hid, ← List.concat_eq_append]
    exact h.ids.concat habsent
  · cases hk : Resource.naturalKey r with
    | none => simpa [foldedKey, hk] using h.keys
    | some key =>
      have habsent : Text.lowerWhole key ∉ s.records.filterMap foldedKey := by
        rw [← containsKey_iff, hkey key hk]
        exact Bool.false_ne_true
      have hone : [r].filterMap foldedKey = [Text.lowerWhole key] := by
        simp [foldedKey, hk]
      rw [List.filterMap_append, hone, ← List.concat_eq_append]
      exact h.keys.concat habsent

theorem Kept.delete {s : Store α} (h : Kept s) (id : String) : Kept (s.delete id) := by
  have hsub : List.Sublist (s.delete id).records s.records := List.filter_sublist
  exact ⟨fun r hr => h.has_id r (hsub.mem hr), h.ids.sublist (hsub.map _),
    h.keys.sublist (hsub.filterMap _)⟩

/-- The ids around an overwritten record differ from its own. -/
theorem Kept.id_ne_of_split {s : Store α} (h : Kept s) {id : String} {x : α} {front back : List α}
    (hx : Resource.id x = some id) (heq : s.records = front ++ x :: back) {y : α}
    (hy : y ∈ front ++ back) : Resource.id y ≠ some id := by
  have hnodup := h.ids
  rw [heq, List.map_append, List.map_cons, List.nodup_middle, List.nodup_cons, ← List.map_append,
    hx] at hnodup
  intro hid
  exact hnodup.1 (List.mem_map.mpr ⟨y, hy, hid⟩)

/-- A record is found under its id. -/
theorem Kept.get?_of_mem {s : Store α} (h : Kept s) {r : α} {id : String} (hr : r ∈ s.records)
    (hid : Resource.id r = some id) : s.get? id = some r := by
  cases hget : s.get? id with
  | none =>
    have habsent := get?_eq_none_iff.mp hget
    rw [containsId_iff.mpr (List.mem_map.mpr ⟨r, hr, hid⟩)] at habsent
    cases habsent
  | some x =>
    obtain ⟨hx, hxid⟩ := get?_eq_some hget
    rw [List.inj_on_of_nodup_map h.ids hx hr (hxid.trans hid.symm)]

theorem Kept.create {s t : Store α} (h : Kept s) {r : α} (hcreate : s.create r = .ok t) :
    Kept t := by
  obtain ⟨id, hid, hnew, hkey, rfl⟩ := create_ok_iff.mp hcreate
  exact h.append hid hnew hkey

/-- After a record is overwritten, only the new one has its id. -/
theorem Kept.mem_replaceFirst {s : Store α} (h : Kept s) {id : String} {x r y : α}
    (hx : s.get? id = some x) (hy : y ∈ Store.replaceFirst id r s.records) :
    y = r ∨ (y ∈ s.records ∧ Resource.id y ≠ some id) := by
  obtain ⟨front, back, heq, hnew, _⟩ := replaceFirst_of_get? hx r
  rw [hnew, List.mem_append, List.mem_cons] at hy
  have around (hmem : y ∈ front ++ back) : y ∈ s.records ∧ Resource.id y ≠ some id := by
    refine ⟨?_, h.id_ne_of_split (get?_eq_some hx).2 heq hmem⟩
    rw [heq]
    exact (List.Sublist.append_left (List.sublist_cons_self x back) front).mem hmem
  rcases hy with hy | rfl | hy
  · exact .inr (around (List.mem_append_left back hy))
  · exact .inl rfl
  · exact .inr (around (List.mem_append_right front hy))

/-- An overwritten record may bring any key that no record beside it has. -/
theorem Kept.replaceFirst {s : Store α} (h : Kept s) {id : String} {x r : α}
    (hx : s.get? id = some x) (hr : Resource.id r = some id)
    (hkey : ∀ key, Resource.naturalKey r = some key → s.containsKeyBeside id key = false) :
    Kept ⟨replaceFirst id r s.records⟩ := by
  obtain ⟨front, back, heq, hnew, _⟩ := replaceFirst_of_get? hx r
  have hxid := (get?_eq_some hx).2
  have hids := h.ids
  have hkeys := h.keys
  rw [heq, List.map_append, List.map_cons] at hids
  rw [heq, List.filterMap_append, List.filterMap_cons] at hkeys
  -- the keys around the overwritten record, whether or not it had one itself
  have haround : ((front ++ back).filterMap foldedKey).Nodup := by
    refine h.keys.sublist (List.Sublist.filterMap _ ?_)
    rw [heq]
    exact List.Sublist.append_left (List.sublist_cons_self x back) front
  refine ⟨?_, ?_, ?_⟩
  · intro y hy
    rw [hnew] at hy
    rcases List.mem_append.mp hy with hy | hy
    · exact h.has_id y (heq ▸ List.mem_append_left _ hy)
    · rcases List.mem_cons.mp hy with rfl | hy
      · exact ⟨id, hr⟩
      · exact h.has_id y (heq ▸ List.mem_append_right _ (List.mem_cons_of_mem x hy))
  · rw [hnew, List.map_append, List.map_cons, hr, ← hxid]
    exact hids
  · rw [hnew, List.filterMap_append, List.filterMap_cons]
    cases hk : Resource.naturalKey r with
    | none =>
      have hnone : foldedKey r = none := by simp [foldedKey, hk]
      rw [hnone, ← List.filterMap_append]
      exact haround
    | some key =>
      have hsome : foldedKey r = some (Text.lowerWhole key) := by simp [foldedKey, hk]
      rw [hsome, List.nodup_middle, List.nodup_cons, ← List.filterMap_append]
      refine ⟨?_, haround⟩
      intro hmem
      obtain ⟨y, hy, hyk⟩ := List.mem_filterMap.mp hmem
      have hyid : hasId id y = false := by
        rw [← Bool.not_eq_true, hasId_iff]
        exact h.id_ne_of_split hxid heq hy
      have hys : y ∈ s.records := by
        rw [heq]
        exact (List.Sublist.append_left (List.sublist_cons_self x back) front).mem hy
      have htaken : s.containsKeyBeside id key = true :=
        List.any_eq_true.mpr ⟨y, hys, by simp [hyid, hasKey_iff.mpr hyk]⟩
      rw [hkey key hk] at htaken
      cases htaken

end Scim.Store
