import Sagas.Filter
import Sagas.Proofs.Binding
import Sagas.Samples.Shipment

/-! Which filters have predicates: those whose conjuncts all do, however the conjunctions are
nested; if one has none, the first such conjunct tells why. -/
namespace Sagas

/-- The filters that the conjunctions of a filter join, from left to right. -/
def Filter.conjuncts : Filter → List Filter
  | .and left right => conjuncts left ++ conjuncts right
  | other => [other]

def Filter.IsConjunction (filter : Filter) : Prop :=
  ∃ left right, filter = .and left right

def Filter.isAll : Filter → Bool
  | .all => true
  | _ => false

/-- Filters with the same conjuncts in the same order, but for the filter of every saga. -/
def Filter.SameConjuncts (first second : Filter) : Prop :=
  (first.conjuncts.filter fun c => !c.isAll) = second.conjuncts.filter fun c => !c.isAll

theorem Filter.not_isConjunction_of_mem_conjuncts {filter c : Filter} (h : c ∈ filter.conjuncts) :
    ¬ c.IsConjunction := by
  induction filter with
  | and left right ihl ihr =>
    rcases List.mem_append.mp h with h | h
    · exact ihl h
    · exact ihr h
  | _ =>
    rw [List.mem_singleton.mp h]
    rintro ⟨_, _, heq⟩
    cases heq

namespace Metadata

variable {m : Metadata} {c : Filter} {tests : List Predicate}

/-- The conjuncts that can be tested: comparisons, declared fields, negated boolean fields and the
filter of every saga. -/
inductive Accepts (m : Metadata) : Filter → Prop
  | all : m.Accepts .all
  | compare (field : String) (comparison : Comparison) (value : Value) :
      m.Accepts (.compare field comparison value)
  | field {path : String} : path ∈ m.columns.map (·.path) → m.Accepts (.field path)
  | negated {path : String} : m.fieldType? path = some .bool → m.Accepts (.not (.field path))

/-- The tests that a conjunct stands for: none for the filter of every saga, otherwise one. -/
inductive Tests (m : Metadata) : Filter → List Predicate → Prop
  | all : m.Tests .all []
  | compare (field : String) (comparison : Comparison) (value : Value) :
      m.Tests (.compare field comparison value) [m.predicate field comparison value]
  | field {path : String} {type : FieldType} : m.fieldType? path = some type →
      m.Tests (.field path) [m.predicate path .eq (bareValue type)]
  | negated {path : String} : m.fieldType? path = some .bool →
      m.Tests (.not (.field path)) [m.predicate path .eq (.bool false)]

theorem exists_fieldType?_iff {path : String} :
    (∃ type, m.fieldType? path = some type) ↔ path ∈ m.columns.map (·.path) := by
  rw [← Option.isSome_iff_exists, fieldType?, Option.isSome_map, List.find?_isSome]
  simp

/-! ## One conjunct -/

theorem tests_iff : m.Tests c tests ↔ ¬ c.IsConjunction ∧ m.predicates c = .ok tests := by
  constructor
  · intro h
    refine ⟨?_, ?_⟩
    · rintro ⟨left, right, rfl⟩
      cases h
    · cases h with
      | all => rfl
      | compare field comparison value => rfl
      | field ht => rw [predicates, ht]
      | negated ht => rw [predicates, if_pos ht]
  · rintro ⟨hc, h⟩
    cases c with
    | all => cases h; exact .all
    | and left right => exact absurd ⟨left, right, rfl⟩ hc
    | compare field comparison value => cases h; exact .compare field comparison value
    | field path =>
      rw [predicates] at h
      split at h
      · rename_i ht
        cases h
        exact .field ht
      · cases h
    | not inner =>
      cases inner with
      | field path =>
        rw [predicates] at h
        split at h
        · rename_i ht
          cases h
          exact .negated ht
        · cases h
      | _ => cases h
    | or left right => cases h
    | call method field arguments => cases h

theorem accepts_iff : m.Accepts c ↔ ∃ tests, m.Tests c tests := by
  constructor
  · intro h
    cases h with
    | all => exact ⟨_, .all⟩
    | compare field comparison value => exact ⟨_, .compare field comparison value⟩
    | field hdeclared =>
      obtain ⟨type, ht⟩ := exists_fieldType?_iff.mpr hdeclared
      exact ⟨_, .field ht⟩
    | negated ht => exact ⟨_, .negated ht⟩
  · rintro ⟨tests, h⟩
    cases h with
    | all => exact .all
    | compare field comparison value => exact .compare field comparison value
    | field ht => exact .field (exists_fieldType?_iff.mp ⟨_, ht⟩)
    | negated ht => exact .negated ht

/-- A conjunct is accepted exactly if it has predicates by itself. -/
theorem accepts_iff_predicates (hc : ¬ c.IsConjunction) :
    m.Accepts c ↔ ∃ tests, m.predicates c = .ok tests := by
  simp only [accepts_iff, tests_iff, hc, not_false_eq_true, true_and]

/-! ## All conjuncts -/

/-- The predicates of some conjuncts, one after the other. -/
def predicatesOf (m : Metadata) (conjuncts : List Filter) :
    Except UnsupportedFault (List Predicate) :=
  (conjuncts.mapM m.predicates).map List.flatten

theorem predicatesOf_cons (c : Filter) (rest : List Filter) :
    m.predicatesOf (c :: rest) = (do
      let first ← m.predicates c
      let second ← m.predicatesOf rest
      return first ++ second) := by
  rw [predicatesOf, predicatesOf, List.mapM_cons]
  cases m.predicates c with
  | error fault => rfl
  | ok first => cases rest.mapM m.predicates <;> rfl

theorem predicatesOf_append (left right : List Filter) :
    m.predicatesOf (left ++ right) = (do
      let first ← m.predicatesOf left
      let second ← m.predicatesOf right
      return first ++ second) := by
  rw [predicatesOf, predicatesOf, predicatesOf, List.mapM_append]
  cases left.mapM m.predicates with
  | error fault => rfl
  | ok first =>
    cases right.mapM m.predicates with
    | error fault => rfl
    | ok second => exact congrArg Except.ok List.flatten_append

theorem predicatesOf_singleton (c : Filter) : m.predicatesOf [c] = m.predicates c := by
  rw [predicatesOf_cons]
  cases m.predicates c with
  | error fault => rfl
  | ok tests => exact congrArg Except.ok (List.append_nil tests)

/-- The predicates of a filter are those of its conjuncts in order. -/
theorem predicates_eq_predicatesOf (filter : Filter) :
    m.predicates filter = m.predicatesOf filter.conjuncts := by
  induction filter with
  | and left right ihl ihr =>
    rw [predicates, ihl, ihr, Filter.conjuncts, predicatesOf_append]
  | _ => exact (predicatesOf_singleton _).symm

/-- The filter of every saga adds nothing to the conjuncts beside it. -/
theorem predicatesOf_filter (conjuncts : List Filter) :
    m.predicatesOf (conjuncts.filter fun c => !c.isAll) = m.predicatesOf conjuncts := by
  induction conjuncts with
  | nil => rfl
  | cons c rest ih =>
    rw [predicatesOf_cons, ← ih]
    cases c with
    | all =>
      change m.predicatesOf (rest.filter fun c => !c.isAll) = _
      cases m.predicatesOf (rest.filter fun c => !c.isAll) <;> rfl
    | _ => exact predicatesOf_cons _ _

/-- A filter has predicates exactly if each conjunct stands for tests; they are these tests. -/
theorem predicates_eq_ok_iff {filter : Filter} {predicates : List Predicate} :
    m.predicates filter = .ok predicates ↔
      ∃ tests, List.Forall₂ m.Tests filter.conjuncts tests ∧ predicates = tests.flatten := by
  -- No conjunct is itself a conjunction, so its tests are just its predicates.
  have htests : ∀ tests, List.Forall₂ m.Tests filter.conjuncts tests ↔
      filter.conjuncts.mapM m.predicates = .ok tests := by
    intro tests
    have hc : ∀ c ∈ filter.conjuncts, ¬ c.IsConjunction := fun c =>
      Filter.not_isConjunction_of_mem_conjuncts
    have heq : m.Tests = fun c tests => ¬ c.IsConjunction ∧ m.predicates c = .ok tests := by
      funext c tests
      exact propext tests_iff
    rw [heq, List.forall₂_and_left, mapM_eq_ok_iff, and_iff_right hc]
  simp only [predicates_eq_predicatesOf, predicatesOf, exceptMap_eq_ok_iff, htests]

/-- A filter has no predicates exactly with the fault of its first conjunct that has none. -/
theorem predicates_eq_error_iff {filter : Filter} {fault : UnsupportedFault} :
    m.predicates filter = .error fault ↔
      ∃ before c after, filter.conjuncts = before ++ c :: after ∧ (∀ b ∈ before, m.Accepts b) ∧
        ¬ m.Accepts c ∧ m.predicates c = .error fault := by
  rw [predicates_eq_predicatesOf, predicatesOf, exceptMap_eq_error_iff, mapM_eq_error_iff]
  have haccepts : ∀ c ∈ filter.conjuncts,
      (m.Accepts c ↔ ∃ tests, m.predicates c = .ok tests) := fun c hc =>
    accepts_iff_predicates (Filter.not_isConjunction_of_mem_conjuncts hc)
  constructor
  · rintro ⟨before, c, after, hsplit, hbefore, hc⟩
    refine ⟨before, c, after, hsplit, fun b hb => ?_, fun haccepted => ?_, hc⟩
    · exact (haccepts b (by simp [hsplit, hb])).mpr (hbefore b hb)
    · obtain ⟨tests, htests⟩ := (haccepts c (by simp [hsplit])).mp haccepted
      rw [hc] at htests
      cases htests
  · rintro ⟨before, c, after, hsplit, hbefore, -, hc⟩
    refine ⟨before, c, after, hsplit, fun b hb => ?_, hc⟩
    exact (haccepts b (by simp [hsplit, hb])).mp (hbefore b hb)

/-- A filter has predicates exactly if all its conjuncts are accepted. -/
theorem exists_predicates_iff {filter : Filter} :
    (∃ predicates, m.predicates filter = .ok predicates) ↔
      ∀ c ∈ filter.conjuncts, m.Accepts c := by
  have hrun : (∃ predicates, m.predicates filter = .ok predicates) ↔
      ∃ tests, filter.conjuncts.mapM m.predicates = .ok tests := by
    simp [predicates_eq_predicatesOf, predicatesOf, exceptMap_eq_ok_iff]
  rw [hrun, exists_mapM_eq_ok_iff]
  exact forall₂_congr fun c hc =>
    (accepts_iff_predicates (Filter.not_isConjunction_of_mem_conjuncts hc)).symm

/-- A filter is translated conjunct by conjunct: it has predicates exactly if all its conjuncts are
accepted, and then they are the tests of the conjuncts in order; otherwise it fails as its first
conjunct does that is not accepted. The nesting of conjunctions has no part in it, nor has the
filter of every saga inside one. -/
theorem predicates_by_conjuncts (m : Metadata) (filter : Filter) :
    ((∃ predicates, m.predicates filter = .ok predicates) ↔
        ∀ c ∈ filter.conjuncts, m.Accepts c) ∧
      (∀ predicates, m.predicates filter = .ok predicates ↔
        ∃ tests, List.Forall₂ m.Tests filter.conjuncts tests ∧ predicates = tests.flatten) ∧
      (∀ fault, m.predicates filter = .error fault ↔
        ∃ before c after, filter.conjuncts = before ++ c :: after ∧ (∀ b ∈ before, m.Accepts b) ∧
          ¬ m.Accepts c ∧ m.predicates c = .error fault) ∧
      ∀ other, other.SameConjuncts filter → m.predicates other = m.predicates filter := by
  refine ⟨exists_predicates_iff, fun _ => predicates_eq_ok_iff, fun _ => predicates_eq_error_iff,
    fun other h => ?_⟩
  rw [predicates_eq_predicatesOf, predicates_eq_predicatesOf, ← predicatesOf_filter, h,
    predicatesOf_filter]

end Metadata

namespace Samples.Shipment

/-- The delivered shipments to a place. -/
def deliveredTo (name : String) : Filter :=
  .and (.and (.compare "destination.Name" .eq (.string name)) .all) (.field "delivered")

/-- The same conditions, joined in another way. -/
def deliveredToNested (name : String) : Filter :=
  .and (.compare "destination.Name" .eq (.string name)) (.and (.and .all .all) (.field "delivered"))

/-- Delivered shipments without a key, or any others. -/
def keyless : Filter :=
  .and (.and .all (.field "delivered")) (.and (.not (.field "shipment_id")) (.or .all .all))

/-- The delivered shipments to Lund have the same predicates however their conditions are joined.
The negation of a key is refused before the alternative beside it. -/
theorem predicates_of_shipments :
    ∃ m, Metadata.resolve descriptor [] none none = .ok m ∧
      m.predicates (deliveredToNested "Lund") = m.predicates (deliveredTo "Lund") ∧
      m.predicates (deliveredTo "Lund") = .ok
        [⟨"Name", .eq, .string "Lund", some .text⟩, ⟨"delivered", .eq, .bool true, some .bool⟩] ∧
      (∀ c ∈ (deliveredTo "Lund").conjuncts, m.Accepts c) ∧
      ∃ before c after, keyless.conjuncts = before ++ c :: after ∧ (∀ b ∈ before, m.Accepts b) ∧
        ¬ m.Accepts c ∧ m.predicates c = .error .negation := by
  refine ⟨_, rfl, ?_, rfl, ?_, ?_⟩
  · exact (Metadata.predicates_by_conjuncts _ (deliveredTo "Lund")).2.2.2 _ rfl
  · exact (Metadata.predicates_by_conjuncts _ (deliveredTo "Lund")).1.mp ⟨_, rfl⟩
  · exact ((Metadata.predicates_by_conjuncts _ keyless).2.2.1 .negation).mp rfl

end Samples.Shipment

end Sagas
