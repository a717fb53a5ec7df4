import Sagas.Value

/-! SQL text with its parameters: with the places their values come from, or with the values. -/
namespace Sagas

/-- How a parameter is addressed: `@name`, or `$n` counted from one. -/
inductive ParameterKey where
  | named (name : String)
  | positional (position : Nat)
deriving DecidableEq, Inhabited

/-- The parameter as it stands in the text. -/
def ParameterKey.placeholder : ParameterKey → String
  | .named name => "@" ++ name
  | .positional position => "$" ++ toString position

/-- Where the value of a parameter comes from: the key of the instance, the version it is about to
have, or the field at a path. -/
inductive BindingSource where
  | correlationId
  | version
  | field (path : String)
deriving DecidableEq, Inhabited

structure Binding where
  key : ParameterKey
  source : BindingSource
deriving DecidableEq, Inhabited

/-- A text with the plan by which an instance's values are bound to it. -/
structure Statement where
  sql : String
  bindings : List Binding
deriving DecidableEq, Inhabited

/-- A value for a parameter, with the type of its field where that is known. -/
structure Parameter where
  key : ParameterKey
  value : Value
  type : Option FieldType
deriving Inhabited

/-- A text with all its values, ready to be run. -/
structure Command where
  sql : String
  parameters : List Parameter
deriving Inhabited

end Sagas
