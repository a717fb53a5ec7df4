import Mathlib.Data.List.Nodup
import Sagas.Samples.Order
import Sagas.Sql.Formatter

/-! What filters mean, and that queries ask for just that. -/
namespace Sagas

variable {m : Metadata} {filter : Filter} {predicates : List Predicate}

/-! ## Meaning -/

namespace Metadata

end Metadata

/-! ## Queries -/

/-- The names by which the parameters of a query are told apart. -/
theorem queryName_injective : Function.Injective fun place : Nat => "value" ++ toString place := by
  intro i j h
  have hrepr : i.repr = j.repr := (String.append_right_inj "value").mp h
  rw [Nat.repr_eq_ofList_toDigits, Nat.repr_eq_ofList_toDigits, String.ofList_inj] at hrepr
  rw [← Nat.ofDigitChars_ten_toDigits (n := i), hrepr, Nat.ofDigitChars_ten_toDigits]

namespace ParameterStyle

theorem queryKey_injective (style : ParameterStyle) :
    Function.Injective fun place : Nat => style.key (place + 1) ("value" ++ toString place) := by
  intro i j h
  cases style with
  | named => exact queryName_injective (ParameterKey.named.inj h)
  | positional => exact Nat.succ.inj (ParameterKey.positional.inj h)

end ParameterStyle

/-- A command that selects by predicates: clause by clause and parameter by parameter, each clause
with the placeholder of the parameter at its place. -/
structure Schema.SelectsBy (s : Schema) (predicates : List Predicate) (c : Command) : Prop where
  text : c.sql = s.dialect.lockedSelect s.metadata.table ++
    (if predicates = [] then ""
      else " WHERE " ++ " AND ".intercalate (List.zipWith (fun p q =>
        s.dialect.quote p.column ++ " " ++ p.comparison.sql ++ " " ++ q.key.placeholder)
        predicates c.parameters)) ++ s.dialect.lockEnding
  values : c.parameters.map (fun q => (q.value, q.type)) = predicates.map fun p => (p.value, p.type)
  keys : (c.parameters.map (·.key)).Nodup

theorem Schema.selection_keys (s : Schema) (predicates : List Predicate) :
    (s.selection predicates).parameters.map (·.key) =
      (List.range' 0 predicates.length).map fun place =>
        s.dialect.parameters.key (place + 1) ("value" ++ toString place) := by
  rw [selection, List.map_map, ← List.zipIdx_map_snd, List.map_map]
  rfl

theorem Schema.selection_selectsBy (s : Schema) (predicates : List Predicate) :
    s.SelectsBy predicates (s.selection predicates) where
  text := by
    cases predicates with
    | nil => rfl
    | cons p rest => rfl
  values :=
    calc (s.selection predicates).parameters.map (fun q => (q.value, q.type))
        = (predicates.zipIdx.map Prod.fst).map fun p => (p.value, p.type) := by
          rw [selection, List.map_map, List.map_map]
          rfl
      _ = predicates.map fun p => (p.value, p.type) := by rw [List.zipIdx_map_fst]
  keys := by
    rw [s.selection_keys]
    exact List.Nodup.map s.dialect.parameters.queryKey_injective List.nodup_range'

namespace Samples.Order

end Samples.Order

end Sagas
