import Mathlib.Data.List.Forall2
import Scim.Filter.Predicate
import Scim.Proofs.Fallible

/-!
# The meaning of filters

What a compiled filter lets through, and why a filter does not compile, are said here in terms of
its single terms, each compiled as a filter of its own. From this follow the laws of a filter: its
terms and alternatives can be rearranged, one more term never lets more through, and one more
alternative never lets less through, except beside none at all, where everything was let through.
-/

namespace Scim.Filter

open Fallible

/-- The parts of a conjunction that can fail to compile, each as a conjunction of its own: its terms,
or the gap that it is if it has none. -/
def Conjunction.parts (c : Conjunction) : List Conjunction :=
  if c.isEmpty then [c] else c.terms.map .ofTerm

/-- Conjunctions of the same terms, in whatever order and however often. -/
def Conjunction.SameTerms (c d : Conjunction) : Prop :=
  ∀ t, t ∈ c.terms ↔ t ∈ d.terms

/-- The terms of each alternative are reordered or repeated, and then the alternatives reordered. -/
def Rearranged (cs ds : List Conjunction) : Prop :=
  ∃ es, List.Forall₂ Conjunction.SameTerms cs es ∧ es.Perm ds

section Meaning

variable (α : Type) [Filterable α]

def Compiles (cs : List Conjunction) : Prop :=
  ∃ p, compile α cs = .ok p

/-- Why the part does not compile alone. -/
def partFault? (part : Conjunction) : Option Fault :=
  failure? (compile α [part])

variable {α}

/-- The predicate of the term alone lets the resource through. -/
def Term.Admits (t : Term) (r : α) : Prop :=
  ∃ p, compile α [.ofTerm t] = .ok p ∧ p.holds r = true

variable (α)

/-- The meaning of a list of alternatives for the resources of one type. -/
structure Meaning (cs : List Conjunction) : Prop where
  compiles : Compiles α cs ↔ ∀ c ∈ cs, c.terms ≠ [] ∧ ∀ t ∈ c.terms, Compiles α [.ofTerm t]
  fails (f : Fault) : compile α cs = .error f ↔
    (cs.flatMap Conjunction.parts).findSome? (partFault? α) = some f
  gap {c : Conjunction} : c.terms = [] →
    partFault? α c = some (.invalidFilter .emptyConjunction)
  holds {p : Predicate α} : compile α cs = .ok p → ∀ r, p.holds r = true ↔
    cs = [] ∨ ∃ c ∈ cs, ∀ t ∈ c.terms, t.Admits r
  rearranged {ds : List Conjunction} : Rearranged cs ds → (Compiles α ds ↔ Compiles α cs) ∧
    ∀ {p q : Predicate α}, compile α cs = .ok p → compile α ds = .ok q →
      ∀ r, q.holds r = p.holds r
  narrowed {front back : List Conjunction} {c d : Conjunction} {p q : Predicate α} :
    cs = front ++ c :: back → (∀ t ∈ c.terms, t ∈ d.terms) → compile α cs = .ok p →
      compile α (front ++ d :: back) = .ok q → ∀ r, q.holds r = true → p.holds r = true
  widened {front back : List Conjunction} {d : Conjunction} {p q : Predicate α} :
    cs ≠ [] → cs = front ++ back → compile α cs = .ok p →
      compile α (front ++ d :: back) = .ok q → ∀ r, p.holds r = true → q.holds r = true

end Meaning

variable {α : Type} [Filterable α]

/-! ## Single terms and gaps -/

theorem compile_ofTerm (t : Term) :
    compile α [.ofTerm t] = (compileTerm α t).map fun m => ⟨[[m]]⟩ := by
  have hterm : compileConjunction α (.ofTerm t) = (compileTerm α t).map fun m => [m] := by
    have hterms : compileConjunction α (.ofTerm t) = compileTerms α [t] := if_neg Bool.false_ne_true
    rw [hterms, compileTerms]
    cases compileTerm α t with
    | error f => rfl
    | ok m => rfl
  rw [compile, compileAll, hterm]
  cases compileTerm α t with
  | error f => rfl
  | ok m => rfl

omit [Filterable α] in
theorem holds_single (m : Matcher α) (r : α) : Predicate.holds ⟨[[m]]⟩ r = m.holds r := by
  simp [Predicate.holds, Predicate.isMatchAll]

theorem admits_iff {t : Term} {r : α} :
    t.Admits r ↔ ∃ m, compileTerm α t = .ok m ∧ m.holds r = true := by
  simp only [Term.Admits, compile_ofTerm, map_ok_iff]
  constructor
  · rintro ⟨_, ⟨m, hm, rfl⟩, hholds⟩
    exact ⟨m, hm, holds_single m r ▸ hholds⟩
  · rintro ⟨m, hm, hholds⟩
    exact ⟨_, ⟨m, hm, rfl⟩, (holds_single m r).trans hholds⟩

/-! ## The first failure -/

theorem failure?_compileTerms (ts : List Term) :
    failure? (compileTerms α ts) = (ts.map Conjunction.ofTerm).findSome? (partFault? α) := by
  induction ts with
  | nil => rfl
  | cons t rest ih =>
    rw [compileTerms, failure?_both, ih, List.map_cons, List.findSome?_cons, partFault?,
      compile_ofTerm, failure?_map]
    cases failure? (compileTerm α t) with
    | none => rfl
    | some f => rfl

theorem failure?_compileConjunction (c : Conjunction) :
    failure? (compileConjunction α c) = c.parts.findSome? (partFault? α) := by
  rw [Conjunction.parts]
  by_cases hempty : c.isEmpty = true
  · have hgap : partFault? α c = failure? (compileConjunction α c) := by
      rw [partFault?, compile, compileAll, failure?_map, failure?_both]
      cases failure? (compileConjunction α c) with
      | none => rfl
      | some f => rfl
    rw [if_pos hempty, List.findSome?_cons, hgap]
    cases failure? (compileConjunction α c) with
    | none => rfl
    | some f => rfl
  · rw [if_neg hempty, compileConjunction, if_neg hempty, failure?_compileTerms]

theorem failure?_compile (cs : List Conjunction) :
    failure? (compile α cs) = (cs.flatMap Conjunction.parts).findSome? (partFault? α) := by
  rw [compile, failure?_map]
  induction cs with
  | nil => rfl
  | cons c rest ih =>
    rw [compileAll, failure?_both, ih, failure?_compileConjunction, List.flatMap_cons,
      List.findSome?_append]

theorem compile_error_iff {cs : List Conjunction} {f : Fault} : compile α cs = .error f ↔
    (cs.flatMap Conjunction.parts).findSome? (partFault? α) = some f := by
  rw [← failure?_compile, failure?_eq_some_iff]

/-- A conjunction without terms compiles nowhere. -/
theorem partFault?_of_gap {c : Conjunction} (h : c.terms = []) :
    partFault? α c = some (.invalidFilter .emptyConjunction) := by
  have h : c.isEmpty = true := List.isEmpty_iff.mpr h
  rw [partFault?, compile, failure?_map, compileAll, failure?_both, compileConjunction, if_pos h]
  rfl

theorem compiles_iff {cs : List Conjunction} : Compiles α cs ↔
    ∀ c ∈ cs, c.terms ≠ [] ∧ ∀ t ∈ c.terms, Compiles α [.ofTerm t] := by
  rw [Compiles, ← failure?_eq_none_iff, failure?_compile, List.findSome?_eq_none_iff,
    List.forall_mem_flatMap]
  refine forall₂_congr fun c _ => ?_
  rw [Conjunction.parts]
  by_cases hempty : c.isEmpty = true
  · have hgap : c.terms = [] := List.isEmpty_iff.mp hempty
    rw [if_pos hempty, List.forall_mem_singleton, partFault?_of_gap hgap]
    exact iff_of_false (by simp) fun h => h.1 hgap
  · rw [if_neg hempty, List.forall_mem_map]
    have hterms : c.terms ≠ [] := fun h => hempty (List.isEmpty_iff.mpr h)
    simp only [partFault?, failure?_eq_none_iff, ne_eq, hterms, not_false_eq_true, true_and,
      Compiles]

/-! ## What is let through -/

theorem compileTerms_holds {ts : List Term} {ms : List (Matcher α)}
    (h : compileTerms α ts = .ok ms) (r : α) :
    ms.all (·.holds r) = true ↔ ∀ t ∈ ts, t.Admits r := by
  induction ts generalizing ms with
  | nil =>
    cases h
    simp
  | cons t rest ih =>
    obtain ⟨m, hm, h⟩ := bind_ok_iff.mp h
    obtain ⟨others, hothers, h⟩ := bind_ok_iff.mp h
    cases h
    rw [List.all_cons, Bool.and_eq_true, ih hothers, List.forall_mem_cons, admits_iff, hm]
    simp

theorem compileConjunction_holds {c : Conjunction} {ms : List (Matcher α)}
    (h : compileConjunction α c = .ok ms) (r : α) :
    ms.all (·.holds r) = true ↔ ∀ t ∈ c.terms, t.Admits r := by
  rw [compileConjunction] at h
  by_cases hempty : c.isEmpty = true
  · rw [if_pos hempty] at h
    cases h
  · rw [if_neg hempty] at h
    exact compileTerms_holds h r

theorem compileAll_holds {cs : List Conjunction} {mss : List (List (Matcher α))}
    (h : compileAll α cs = .ok mss) (r : α) :
    (mss.any fun ms => ms.all (·.holds r)) = true ↔ ∃ c ∈ cs, ∀ t ∈ c.terms, t.Admits r := by
  induction cs generalizing mss with
  | nil =>
    cases h
    simp
  | cons c rest ih =>
    obtain ⟨ms, hms, h⟩ := bind_ok_iff.mp h
    obtain ⟨others, hothers, h⟩ := bind_ok_iff.mp h
    cases h
    rw [List.any_cons, Bool.or_eq_true, compileConjunction_holds hms, ih hothers,
      List.exists_mem_cons_iff]

/-- The predicate of the alternatives lets everything through only if there are none of them. -/
theorem compileAll_isEmpty {cs : List Conjunction} {mss : List (List (Matcher α))}
    (h : compileAll α cs = .ok mss) : mss.isEmpty = true ↔ cs = [] := by
  cases cs with
  | nil =>
    cases h
    simp
  | cons c rest =>
    obtain ⟨ms, -, h⟩ := bind_ok_iff.mp h
    obtain ⟨others, -, h⟩ := bind_ok_iff.mp h
    cases h
    simp

theorem compile_holds {cs : List Conjunction} {p : Predicate α} (h : compile α cs = .ok p) (r : α) :
    p.holds r = true ↔ cs = [] ∨ ∃ c ∈ cs, ∀ t ∈ c.terms, t.Admits r := by
  obtain ⟨mss, hmss, rfl⟩ := map_ok_iff.mp h
  rw [Predicate.holds, Predicate.isMatchAll, Bool.or_eq_true, compileAll_isEmpty hmss,
    compileAll_holds hmss]

/-! ## Rearranging -/

/-- Every alternative of the one filter has a counterpart of the same terms in the other. -/
theorem Rearranged.counterparts {cs ds : List Conjunction} (h : Rearranged cs ds) :
    (∀ c ∈ cs, ∃ d ∈ ds, c.SameTerms d) ∧ ∀ d ∈ ds, ∃ c ∈ cs, c.SameTerms d := by
  obtain ⟨es, hsame, hperm⟩ := h
  have hes : (∀ c ∈ cs, ∃ e ∈ es, c.SameTerms e) ∧ ∀ e ∈ es, ∃ c ∈ cs, c.SameTerms e := by
    clear hperm
    induction hsame with
    | nil => exact ⟨fun _ h => (by cases h), fun _ h => (by cases h)⟩
    | @cons c e cs es hce _ ih =>
      constructor
      · intro x hx
        rcases List.mem_cons.mp hx with rfl | hx
        · exact ⟨e, List.mem_cons_self, hce⟩
        · obtain ⟨y, hy, hxy⟩ := ih.1 x hx
          exact ⟨y, List.mem_cons_of_mem e hy, hxy⟩
      · intro y hy
        rcases List.mem_cons.mp hy with rfl | hy
        · exact ⟨c, List.mem_cons_self, hce⟩
        · obtain ⟨x, hx, hxy⟩ := ih.2 y hy
          exact ⟨x, List.mem_cons_of_mem c hx, hxy⟩
  constructor
  · intro c hc
    obtain ⟨e, he, hce⟩ := hes.1 c hc
    exact ⟨e, hperm.mem_iff.mp he, hce⟩
  · intro d hd
    exact hes.2 d (hperm.mem_iff.mpr hd)

theorem Conjunction.SameTerms.symm {c d : Conjunction} (h : c.SameTerms d) : d.SameTerms c :=
  fun t => (h t).symm

theorem Conjunction.SameTerms.terms_ne_nil {c d : Conjunction} (h : c.SameTerms d)
    (hc : c.terms ≠ []) : d.terms ≠ [] := by
  obtain ⟨t, ht⟩ := List.exists_mem_of_ne_nil c.terms hc
  exact List.ne_nil_of_mem ((h t).mp ht)

/-- A filter compiles if each of its alternatives has the terms of one of a filter that does. -/
theorem Compiles.of_counterparts {cs ds : List Conjunction} (h : Compiles α cs)
    (hds : ∀ d ∈ ds, ∃ c ∈ cs, c.SameTerms d) : Compiles α ds := by
  rw [compiles_iff] at h ⊢
  intro d hd
  obtain ⟨c, hc, hsame⟩ := hds d hd
  exact ⟨hsame.terms_ne_nil (h c hc).1, fun t ht => (h c hc).2 t ((hsame t).mpr ht)⟩

/-- A filter lets through what an alternative of another does, if it has one of the same terms. -/
theorem exists_admits_of_counterparts {cs ds : List Conjunction} {r : α}
    (hcs : ∀ c ∈ cs, ∃ d ∈ ds, c.SameTerms d) (h : ∃ c ∈ cs, ∀ t ∈ c.terms, t.Admits r) :
    ∃ d ∈ ds, ∀ t ∈ d.terms, t.Admits r := by
  obtain ⟨c, hc, hadmits⟩ := h
  obtain ⟨d, hd, hsame⟩ := hcs c hc
  exact ⟨d, hd, fun t ht => hadmits t ((hsame t).mpr ht)⟩

theorem Rearranged.eq_nil_iff {cs ds : List Conjunction} (h : Rearranged cs ds) :
    ds = [] ↔ cs = [] := by
  obtain ⟨es, hsame, hperm⟩ := h
  rw [← List.length_eq_zero_iff, ← hperm.length_eq, ← hsame.length_eq, List.length_eq_zero_iff]

theorem Rearranged.compiles_iff {cs ds : List Conjunction} (h : Rearranged cs ds) :
    Compiles α ds ↔ Compiles α cs := by
  obtain ⟨hcs, hds⟩ := h.counterparts
  constructor
  · intro hcompiles
    refine hcompiles.of_counterparts fun c hc => ?_
    obtain ⟨d, hd, hsame⟩ := hcs c hc
    exact ⟨d, hd, hsame.symm⟩
  · exact fun hcompiles => hcompiles.of_counterparts hds

theorem Rearranged.holds_eq {cs ds : List Conjunction} (h : Rearranged cs ds) {p q : Predicate α}
    (hp : compile α cs = .ok p) (hq : compile α ds = .ok q) (r : α) : q.holds r = p.holds r := by
  obtain ⟨hcs, hds⟩ := h.counterparts
  rw [Bool.eq_iff_iff, compile_holds hp, compile_holds hq, h.eq_nil_iff]
  refine or_congr_right ⟨?_, exists_admits_of_counterparts hcs⟩
  refine exists_admits_of_counterparts fun d hd => ?_
  obtain ⟨c, hc, hsame⟩ := hds d hd
  exact ⟨c, hc, hsame.symm⟩

/-- Every filter has this meaning. -/
theorem compile_meaning (α : Type) [Filterable α] (cs : List Conjunction) : Meaning α cs where
  compiles := compiles_iff
  fails _ := compile_error_iff
  gap h := partFault?_of_gap h
  holds h := compile_holds h
  rearranged h := ⟨h.compiles_iff, h.holds_eq⟩
  narrowed := by
    rintro front back c d p q rfl hterms hp hq r hr
    rw [compile_holds hp]
    right
    rcases (compile_holds hq r).mp hr with hnil | ⟨e, he, hadmits⟩
    · exact absurd hnil (by simp)
    rcases List.mem_append.mp he with he | he
    · exact ⟨e, List.mem_append_left _ he, hadmits⟩
    rcases List.mem_cons.mp he with rfl | he
    · exact ⟨c, by simp, fun t ht => hadmits t (hterms t ht)⟩
    · exact ⟨e, by simp [he], hadmits⟩
  widened := by
    rintro front back d p q hne rfl hp hq r hr
    rw [compile_holds hq]
    right
    rcases (compile_holds hp r).mp hr with hnil | ⟨c, hc, hadmits⟩
    · exact absurd hnil hne
    rcases List.mem_append.mp hc with hc | hc
    · exact ⟨c, List.mem_append_left _ hc, hadmits⟩
    · exact ⟨c, by simp [hc], hadmits⟩

end Scim.Filter
