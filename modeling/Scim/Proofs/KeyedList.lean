/-!
# Lists whose entries are told apart by a value

An entry is added at the end of such a list unless its value is there already, and all entries of
some values are dropped at once. Nothing is asked of the list itself: it may hold a value twice.
Additions made one by one come to this: of the entries that are added, the first of each value that
was not there stands at the end, in the order in which they were added.
-/

namespace Scim.Keyed

variable {E : Type} (value : E → String)

/-- Adds an entry at the end, unless its value is there already. -/
def insertNew (xs : List E) (e : E) : List E :=
  if xs.any (value · == value e) then xs else xs ++ [e]

/-- The entry has the value of one of the list. -/
def occurs (xs : List E) (e : E) : Bool :=
  (xs.map value).contains (value e)

/-- Of the entries that are added, those whose value was not there, and of each value the first. -/
def newcomers (old added : List E) : List E :=
  (added.filter fun e => !occurs value old e).eraseDupsBy fun e e' => value e == value e'

/-- What is left without the entries that have a value of those that are dropped. -/
def without (old dropped : List E) : List E :=
  old.filter fun e => !occurs value dropped e

/-- No two entries have the same value. -/
def Distinct (xs : List E) : Prop :=
  (xs.map value).Nodup

variable {value} {old added xs : List E} {e x : E}

theorem occurs_eq_true_iff : occurs value xs e = true ↔ ∃ y ∈ xs, value y = value e := by
  rw [occurs, List.contains_iff_mem, List.mem_map]

theorem occurs_eq_false_iff : occurs value xs e = false ↔ value e ∉ xs.map value := by
  rw [occurs, ← Bool.not_eq_true, List.contains_iff_mem]

theorem occurs_append : occurs value (xs ++ [x]) e = (occurs value xs e || value e == value x) := by
  rw [occurs, List.map_append, List.map_singleton, List.contains_eq_mem, occurs, List.contains_eq_mem]
  simp only [List.mem_append, List.mem_singleton, Bool.decide_or]
  rfl

theorem insertNew_eq (xs : List E) (e : E) :
    insertNew value xs e = if occurs value xs e then xs else xs ++ [e] := by
  have hany : xs.any (value · == value e) = occurs value xs e := by
    rw [Bool.eq_iff_iff, occurs_eq_true_iff, List.any_eq_true]
    simp only [beq_iff_eq]
  rw [insertNew, hany]

/-! ## Additions one by one -/

theorem newcomers_nil (old : List E) : newcomers value old [] = [] := by
  rw [newcomers, List.filter_nil, List.eraseDupsBy_nil]

theorem newcomers_cons_of_occurs (h : occurs value old e = true) (rest : List E) :
    newcomers value old (e :: rest) = newcomers value old rest := by
  rw [newcomers, List.filter_cons_of_neg (by simp [h]), newcomers]

/-- A newcomer counts as there for those after it. -/
theorem newcomers_cons_of_new (h : occurs value old e = false) (rest : List E) :
    newcomers value old (e :: rest) = e :: newcomers value (old ++ [e]) rest := by
  rw [newcomers, List.filter_cons_of_pos (by simp [h]), List.eraseDupsBy_cons, List.filter_filter,
    newcomers]
  congr 3
  funext x
  rw [occurs_append]
  rw [Bool.not_or, Bool.and_comm, Bool.decide_eq_false]

theorem foldl_insertNew (old added : List E) :
    added.foldl (insertNew value) old = old ++ newcomers value old added := by
  induction added generalizing old with
  | nil => rw [List.foldl_nil, newcomers_nil, List.append_nil]
  | cons e rest ih =>
    rw [List.foldl_cons, insertNew_eq]
    by_cases h : occurs value old e = true
    · rw [if_pos h, newcomers_cons_of_occurs h]
      exact ih old
    · rw [if_neg h, newcomers_cons_of_new (eq_false_of_ne_true h), ih, List.append_assoc,
        List.singleton_append]

/-- Only the first of two new entries with the same value is a newcomer. -/
example : newcomers Prod.fst [("b", 0)] [("a", 1), ("b", 2), ("c", 3), ("a", 4)] =
    [("a", 1), ("c", 3)] := by decide

theorem newcomers_sublist (old added : List E) : (newcomers value old added).Sublist added := by
  induction added generalizing old with
  | nil => exact List.sublist_nil.mpr (newcomers_nil old)
  | cons e rest ih =>
    by_cases h : occurs value old e = true
    · rw [newcomers_cons_of_occurs h]
      exact (ih old).cons e
    · rw [newcomers_cons_of_new (eq_false_of_ne_true h)]
      exact (ih (old ++ [e])).cons_cons e

theorem distinct_insertNew (h : Distinct value xs) (e : E) : Distinct value (insertNew value xs e) := by
  rw [insertNew_eq]
  by_cases hold : occurs value xs e = true
  · rwa [if_pos hold]
  · rw [if_neg hold, Distinct, List.map_append, List.map_singleton]
    refine List.nodup_append.mpr ⟨h, List.pairwise_singleton _ _, ?_⟩
    rintro v hv _ hnew rfl
    rw [List.mem_singleton.mp hnew] at hv
    exact hold (List.contains_iff_mem.mpr hv)

theorem distinct_foldl_insertNew (h : Distinct value old) (added : List E) :
    Distinct value (added.foldl (insertNew value) old) := by
  induction added generalizing old with
  | nil => exact h
  | cons e rest ih => exact ih (distinct_insertNew h e)

/-! ## What is added a second time -/

theorem occurs_insertNew_self (xs : List E) (e : E) : occurs value (insertNew value xs e) e = true := by
  rw [insertNew_eq]
  by_cases h : occurs value xs e = true
  · rwa [if_pos h]
  · rw [if_neg h, occurs_eq_true_iff]
    exact ⟨e, List.mem_append_right xs List.mem_cons_self, rfl⟩

/-- No addition takes a value away. -/
theorem occurs_foldl_of_occurs (h : occurs value old e = true) (added : List E) :
    occurs value (added.foldl (insertNew value) old) e = true := by
  obtain ⟨y, hy, heq⟩ := occurs_eq_true_iff.mp h
  rw [foldl_insertNew]
  exact occurs_eq_true_iff.mpr ⟨y, List.mem_append_left _ hy, heq⟩

theorem occurs_foldl_insertNew (h : e ∈ added) (old : List E) :
    occurs value (added.foldl (insertNew value) old) e = true := by
  induction added generalizing old with
  | nil => cases h
  | cons x rest ih =>
    rcases List.mem_cons.mp h with rfl | h
    · exact occurs_foldl_of_occurs (occurs_insertNew_self old e) rest
    · exact ih h (insertNew value old x)

theorem newcomers_eq_nil (h : ∀ e ∈ added, occurs value old e = true) :
    newcomers value old added = [] := by
  have hnone : (added.filter fun e => !occurs value old e) = [] := by
    refine List.filter_eq_nil_iff.mpr fun e he => ?_
    simp [h e he]
  rw [newcomers, hnone, List.eraseDupsBy_nil]

/-- The same additions again find every value there. -/
theorem foldl_insertNew_again (old added : List E) :
    added.foldl (insertNew value) (added.foldl (insertNew value) old) =
      added.foldl (insertNew value) old := by
  rw [foldl_insertNew (added.foldl (insertNew value) old),
    newcomers_eq_nil fun e he => occurs_foldl_insertNew he old, List.append_nil]

/-! ## What is added and dropped again -/

theorem without_append (xs ys dropped : List E) :
    without value (xs ++ ys) dropped = without value xs dropped ++ without value ys dropped :=
  List.filter_append xs ys

theorem without_eq_self (h : ∀ e ∈ xs, occurs value old e = false) : without value xs old = xs := by
  refine List.filter_eq_self.mpr fun e he => ?_
  rw [h e he]
  rfl

theorem without_eq_nil (h : ∀ e ∈ xs, e ∈ old) : without value xs old = [] := by
  refine List.filter_eq_nil_iff.mpr fun e he => ?_
  simp [occurs_eq_true_iff.mpr ⟨e, h e he, rfl⟩]

theorem without_singleton (old : List E) (e : E) :
    without value old [e] = old.filter (value · != value e) := by
  refine List.filter_congr fun x _ => ?_
  rw [Bool.eq_iff_iff]
  simp [occurs]

/-- What is added to a list that has none of its values can be dropped again. -/
theorem without_newcomers (h : ∀ e ∈ added, occurs value old e = false) :
    without value (old ++ newcomers value old added) added = old := by
  have hold : ∀ e ∈ old, occurs value added e = false := by
    intro e he
    refine eq_false_of_ne_true fun hoccurs => ?_
    obtain ⟨y, hy, heq⟩ := occurs_eq_true_iff.mp hoccurs
    have hy' := h y hy
    rw [occurs_eq_true_iff.mpr ⟨e, he, heq.symm⟩] at hy'
    cases hy'
  rw [without_append, without_eq_self hold,
    without_eq_nil fun e he => (newcomers_sublist old added).mem he, List.append_nil]

end Scim.Keyed
