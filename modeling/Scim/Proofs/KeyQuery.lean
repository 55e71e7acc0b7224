import Scim.Proofs.FinalSigma
import Scim.Proofs.History

/-!
# Queries for a natural key

A filter compares a natural key letter by letter, and a store compares it as a whole. A query for a
key therefore finds what the store says is there as long as the key has no sigma at the end of a
word. For every other key there is a history after which the query finds nothing although the key is
taken, or finds a resource although the key is free.
-/

namespace Scim

open Fallible

/-- The query, without pagination, for the resources whose natural key equals `key`. -/
def keyQuery (α : Type) [Resource α] (key : String) : Query :=
  ⟨[.ofTerm ⟨Resource.naturalKeyName α, .equals, key⟩], (Resource.kind α).schema, none⟩

theorem Kind.ofIdentifier?_schema (kind : Kind) : ofIdentifier? kind.schema = some kind := by
  cases kind with
  | user => decide +kernel
  | group => decide +kernel

theorem Kind.schema_not_blank (kind : Kind) : Text.isBlank kind.schema = false := by
  cases kind with
  | user => rfl
  | group => rfl

theorem validateRequestId_of_not_blank {requestId : String} (h : Text.isBlank requestId = false) :
    validateRequestId requestId = .ok () := by
  rw [validateRequestId, h, if_neg Bool.false_ne_true]

/-- Resources whose natural key can be filtered, and which can be made from one. -/
class KeyFiltered (α : Type) [Managed α] where
  path : Text.isBlank (Resource.naturalKeyName α) = false
  reading : Filterable.reading? α (Resource.naturalKeyName α) = some (.text Resource.naturalKey)
  named : String → α
  id_named (key : String) : Resource.id (named key) = none
  naturalKey_named (key : String) : Resource.naturalKey (named key) = some key

instance : KeyFiltered User where
  path := by decide
  reading := rfl
  named := User.named
  id_named _ := rfl
  naturalKey_named _ := rfl

instance : KeyFiltered Group where
  path := by decide
  reading := rfl
  named := Group.named
  id_named _ := rfl
  naturalKey_named _ := rfl

variable {α : Type}

/-! ## One store -/

namespace Store

variable [Resource α]

/-- Whether a filter for the natural key lets a record through. -/
def isFoundBy (key : String) (r : α) : Bool :=
  (Filter.Matcher.textEquals Resource.naturalKey (Text.lowerEach key)).holds r

/-- The filter for a natural key lets one record through if the key is taken, and otherwise none. -/
def FindsKey (s : Store α) (key : String) : Prop :=
  (s.records.filter (isFoundBy key)).length = if s.exists? none key then 1 else 0

theorem isFoundBy_eq {r : α} {k key : String} (h : Resource.naturalKey r = some k) :
    isFoundBy key r = (Text.lowerEach k == Text.lowerEach key) := by
  simp only [isFoundBy, Filter.Matcher.holds, h]

theorem isFoundBy_eq_hasKey {key : String} (hkey : Text.hasFinalSigma key = false) (r : α) :
    isFoundBy key r = hasKey key r := by
  cases h : Resource.naturalKey r with
  | none => simp only [isFoundBy, Filter.Matcher.holds, hasKey, h]
  | some k =>
    rw [isFoundBy_eq h, hasKey, h, Bool.eq_iff_iff, beq_iff_eq, beq_iff_eq]
    exact Text.lowerEach_eq_iff hkey k

/-- Of the records that a store keeps in order, at most one has a key. -/
theorem Kept.length_filter_hasKey {s : Store α} (h : s.Kept) (key : String) :
    (s.records.filter (hasKey key)).length = if s.exists? none key then 1 else 0 := by
  have hcount : (s.records.filter (hasKey key)).length =
      (s.records.filterMap foldedKey).count (Text.lowerWhole key) := by
    rw [List.count, List.countP_filterMap, ← List.countP_eq_length_filter]
    refine List.countP_congr fun r _ => ?_
    rw [hasKey_iff]
    cases foldedKey r with
    | none => simp
    | some k => simp
  rw [hcount, exists?, Bool.false_or]
  by_cases htaken : s.containsKey key = true
  · rw [if_pos htaken]
    exact List.count_eq_one_of_mem h.keys (containsKey_iff.mp htaken)
  · rw [if_neg htaken]
    exact List.count_eq_zero_of_not_mem fun hmem => htaken (containsKey_iff.mpr hmem)

theorem Kept.findsKey {s : Store α} (h : s.Kept) {key : String}
    (hkey : Text.hasFinalSigma key = false) : s.FindsKey key := by
  have hfilter : isFoundBy key = (hasKey key : α → Bool) := funext (isFoundBy_eq_hasKey hkey)
  rw [FindsKey, hfilter]
  exact h.length_filter_hasKey key

/-- A single record whose key equals another in one reading alone is not found where it should be. -/
theorem not_findsKey_singleton {r : α} {k key : String} (hr : Resource.naturalKey r = some k)
    (happart : ¬ (Text.lowerEach k = Text.lowerEach key ↔ Text.lowerWhole k = Text.lowerWhole key)) :
    ¬ FindsKey ⟨[r]⟩ key := by
  have hexists : exists? ⟨[r]⟩ none key = (Text.lowerWhole k == Text.lowerWhole key) := by
    simp only [exists?, containsKey, hasKey, hr, List.any_cons, List.any_nil, Bool.or_false,
      Bool.false_or]
  rw [FindsKey, hexists, List.filter_cons, isFoundBy_eq hr, List.filter_nil]
  intro hfinds
  apply happart
  by_cases heach : Text.lowerEach k = Text.lowerEach key
  · by_cases hwhole : Text.lowerWhole k = Text.lowerWhole key
    · exact iff_of_true heach hwhole
    · rw [if_pos (beq_iff_eq.mpr heach), if_neg fun h => hwhole (beq_iff_eq.mp h)] at hfinds
      cases hfinds
  · by_cases hwhole : Text.lowerWhole k = Text.lowerWhole key
    · rw [if_neg fun h => heach (beq_iff_eq.mp h), if_pos (beq_iff_eq.mpr hwhole)] at hfinds
      cases hfinds
    · exact iff_of_false heach hwhole

end Store

/-! ## One service -/

namespace Service

variable [Managed α]

theorem validate_keyQuery (key : String) : (keyQuery α key).validate = .ok () := by
  rw [Query.validate, keyQuery, Kind.schema_not_blank]
  rfl

theorem checkSchema_keyQuery (key : String) :
    checkSchema α (keyQuery α key).schemaIdentifier = .ok () := by
  delta checkSchema keyQuery
  simp only [Kind.ofIdentifier?_schema, if_true]

variable [KeyFiltered α]

/-- A key that is not blank makes a matcher for the key made small letter by letter. -/
theorem compile_keyQuery {key : String} (hkey : Text.isBlank key = false) :
    Filter.compile α (keyQuery α key).filters =
      .ok ⟨[[.textEquals Resource.naturalKey (Text.lowerEach key)]]⟩ := by
  have hterm : Filter.compileTerm α ⟨Resource.naturalKeyName α, .equals, key⟩ =
      .ok (.textEquals Resource.naturalKey (Text.lowerEach key)) := by
    simp only [Filter.compileTerm, KeyFiltered.path, hkey, KeyFiltered.reading, Bool.false_eq_true,
      if_false]
  simp only [Filter.compile, keyQuery, Filter.compileAll, Filter.compileConjunction,
    Filter.Conjunction.ofTerm, Filter.Conjunction.isEmpty, List.isEmpty_cons, Bool.false_eq_true,
    if_false, Filter.compileTerms, hterm]
  rfl

theorem select_keyQuery {key : String} (hkey : Text.isBlank key = false) (rs : List α) :
    (keyQuery α key).select rs = .ok (rs.filter (Store.isFoundBy key)) := by
  simp only [Query.select, validate_keyQuery, compile_keyQuery hkey]
  change Except.ok (rs.filter _) = Except.ok (rs.filter _)
  congr 2
  funext r
  simp only [Filter.Predicate.holds, Filter.Predicate.isMatchAll, List.isEmpty_cons, List.any_cons,
    List.any_nil, List.all_cons, List.all_nil, Bool.false_or, Bool.or_false, Bool.and_true,
    Store.isFoundBy]

theorem queried_keyQuery {o : Occasion} (ho : Text.isBlank o.requestId = false) {key : String}
    (hkey : Text.isBlank key = false) (s : Store α) :
    queried o (keyQuery α key) s = .ok (s.records.filter (Store.isFoundBy key)) := by
  simp only [queried, validateRequestId_of_not_blank ho, validate_keyQuery, checkSchema_keyQuery, select_keyQuery hkey]
  rfl

end Service

namespace Directory

variable [Managed α]

/-- Asked on either way, a query for the key is answered with one resource if the store of this side
says that the key is taken, and with none otherwise. -/
def FindsKey (side : Side α) (config : Config) (o : Occasion) (key : String) (s : Stores) : Prop :=
  ∀ q ∈ [side.ask (.query (keyQuery α key)), .routed (.query (keyQuery α key))],
    ∃ rs, (serve config s ⟨o, q⟩).1 = .ok (.resources rs) ∧
      rs.length = if (side.store s).exists? none key then 1 else 0

theorem route_schema (kind : Kind) : route kind.schema = .ok kind :=
  route_ok_iff.mpr (Kind.ofIdentifier?_schema kind)

variable {side : Side α} {config : Config} {o : Occasion} {s : Stores} {key : String}

/-- A query for a key that is routed comes to the same as one that is asked directly. -/
theorem outcome_routed_keyQuery (ho : Text.isBlank o.requestId = false) :
    outcome config o s (.routed (.query (keyQuery α key))) =
      outcome config o s (side.ask (.query (keyQuery α key))) := by
  have hroute : route (keyQuery α key).schemaIdentifier = .ok side.kind := by
    rw [side.kind_eq]
    exact route_schema (Resource.kind α)
  have hdirect : direct o (.routed (.query (keyQuery α key))) =
      .ok (choose (.query (keyQuery α key)) (.query (keyQuery α key)) side.kind) := by
    simp only [direct, directRouted, validateRequestId_of_not_blank ho, Service.validate_keyQuery,
      hroute]
    rfl
  rw [outcome_of_shown fun _ => rfl, hdirect, side.outcome_ask, ← side.outcome_choose]
  rfl

/-- After the creation of one resource, the store of the side holds nothing else. -/
theorem store_after_creation [LawfulManaged α] {r : α} (unnamed : Resource.id r = none)
    (hkey : Service.requireNaturalKey r = .ok key) :
    side.store (after config empty [⟨o, side.ask (.create r)⟩]) =
      ⟨[Service.stampNew config o r]⟩ := by
  have hcreated := side.outcome_ask config o empty (.create r)
  rw [side.store_empty, Service.outcome, Service.created_of_free unnamed hkey rfl rfl] at hcreated
  change side.store (serve config empty _).2 = _
  rw [serve_of_ok hcreated, side.store_put]
  rfl

variable [KeyFiltered α]

theorem requireNaturalKey_named (hkey : Text.isBlank key = false) :
    Service.requireNaturalKey (KeyFiltered.named key : α) = .ok key :=
  Service.requireNaturalKey_ok_iff.mpr ⟨KeyFiltered.naturalKey_named key, hkey⟩

theorem outcome_keyQuery (ho : Text.isBlank o.requestId = false)
    (hkey : Text.isBlank key = false) :
    outcome config o s (side.ask (.query (keyQuery α key))) =
      .ok (.resources (((side.store s).records.filter (Store.isFoundBy key)).map side.wrap),
        side.put s (side.store s)) := by
  rw [side.outcome_ask, Service.outcome, Service.queried_keyQuery ho hkey]
  rfl

/-- A directory finds a key if the store does. -/
theorem findsKey_iff (ho : Text.isBlank o.requestId = false) (hkey : Text.isBlank key = false) :
    FindsKey side config o key s ↔ (side.store s).FindsKey key := by
  have hask : outcome config o s (side.ask (.query (keyQuery α key))) = .ok (.resources
      (((side.store s).records.filter (Store.isFoundBy key)).map side.wrap),
      side.put s (side.store s)) := outcome_keyQuery ho hkey
  constructor
  · intro h
    obtain ⟨rs, hrs, hlength⟩ := h _ List.mem_cons_self
    rw [serve_of_ok hask] at hrs
    cases hrs
    rw [List.length_map] at hlength
    exact hlength
  · intro h q hq
    have hsame : outcome config o s q = outcome config o s (side.ask (.query (keyQuery α key))) := by
      rcases List.mem_cons.mp hq with rfl | hq
      · rfl
      · rw [List.mem_singleton.mp hq]
        exact outcome_routed_keyQuery ho
    refine ⟨_, congrArg Prod.fst (serve_of_ok (hsame.trans hask)), ?_⟩
    rw [List.length_map]
    exact h

/-- A key is found after every history from empty stores exactly if it has no final sigma. -/
theorem Side.findsKey_after_iff [LawfulManaged α] (side : Side α) (config : Config)
    (ho : Text.isBlank o.requestId = false) (hkey : Text.isBlank key = false) :
    (∀ events, FindsKey side config o key (after config empty events)) ↔
      Text.hasFinalSigma key = false := by
  constructor
  · intro h
    rw [← Bool.not_eq_true]
    intro hsigma
    obtain ⟨x, hx, happart⟩ := Text.exists_told_apart hsigma
    have hfinds := (findsKey_iff ho hkey).mp (h [⟨o, side.ask (.create (KeyFiltered.named x))⟩])
    rw [store_after_creation (KeyFiltered.id_named x) (requireNaturalKey_named hx)] at hfinds
    refine Store.not_findsKey_singleton ?_ happart hfinds
    rw [Service.naturalKey_stampNew, KeyFiltered.naturalKey_named]
  · intro hsigma events
    exact (findsKey_iff ho hkey).mpr
      ((side.kept_after config side.kept_empty events).findsKey hsigma)

/-- Queries for a key agree with the stores after every history from empty stores exactly if the key
has no sigma at the end of a word. -/
theorem key_queries_agree_iff (config : Config) (o : Occasion) (key : String)
    (ho : Text.isBlank o.requestId = false) (hkey : Text.isBlank key = false) :
    ((∀ events, FindsKey users config o key (after config empty events)) ↔
      Text.hasFinalSigma key = false) ∧
    ((∀ events, FindsKey groups config o key (after config empty events)) ↔
      Text.hasFinalSigma key = false) :=
  ⟨users.findsKey_after_iff config ho hkey, groups.findsKey_after_iff config ho hkey⟩

/-- An occasion for the two cases below. -/
def newYear : Occasion :=
  ⟨"request", "resource", ⟨2025, 1, 1, by decide, by decide, by decide⟩, 0, 0, by decide, by decide⟩

theorem key_queries_agree_for_bjensen :
    (∀ events, FindsKey users Config.default newYear "bjensen" (after Config.default empty events)) ∧
    (∀ events, FindsKey groups Config.default newYear "bjensen" (after Config.default empty events)) :=
  have hiff := key_queries_agree_iff Config.default newYear "bjensen" (by decide) (by decide)
  ⟨hiff.1.mpr (by decide +kernel), hiff.2.mpr (by decide +kernel)⟩

/-- Once there is a user ΟΔΟΣ, the name οδος is taken and the query for it finds nobody. -/
theorem key_query_misses_taken_key :
    ¬ FindsKey users Config.default newYear "οδος"
      (after Config.default empty [⟨newYear, .users (.create (User.named "ΟΔΟΣ"))⟩]) := by
  intro h
  have hfinds := (findsKey_iff (by decide) (by decide)).mp h
  have hstore : users.store
      (after Config.default empty [⟨newYear, .users (.create (User.named "ΟΔΟΣ"))⟩]) =
        ⟨[Service.stampNew Config.default newYear (User.named "ΟΔΟΣ")]⟩ :=
    store_after_creation rfl (requireNaturalKey_named (by decide))
  rw [hstore] at hfinds
  exact Store.not_findsKey_singleton (Service.naturalKey_stampNew _ _ _) (by decide +kernel) hfinds

end Directory

end Scim
