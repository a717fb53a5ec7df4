import Sagas.Declaration.TypeExpr.Basic

/-! Declarations of record types, with the settings attached to them and to their fields. -/
namespace Sagas

/-- A literal in a setting. -/
inductive Literal where
  | string (s : String)
  | int (n : Int)
  | bool (b : Bool)
deriving DecidableEq

/-- What is attached to a declaration or a field: a name by itself, a name with a value, or a name
with further settings in parentheses. -/
inductive Setting where
  | flag (name : String)
  | value (name : String) (literal : Literal)
  | group (name : String) (items : List Setting)

structure FieldDeclaration where
  name : String
  type : TypeExpr
  settings : List Setting

/-- What a declaration declares. Only records have fields with names. -/
inductive Shape where
  | record (fields : List FieldDeclaration)
  | tuple
  | unit
  | enumeration

structure Declaration where
  name : String
  shape : Shape
  settings : List Setting

/-- Why nothing can be derived from a declaration. -/
inductive DeclarationFault where
  /-- Settings named `heading` come without a list. -/
  | argumentsExpected (heading : String)
  /-- Settings named `heading` come with a value in place of a list. -/
  | listExpected (heading : String)
  | equalsExpected
  | commaExpected
  | stringExpected
  | groupExpected (atEnd : Bool)
  | itemExpected
  | unsupportedTypeSetting
  | unsupportedFieldSetting
  | notRecord
  | namelessFields
  | secondKey
  | secondVersion
  | noKey
  | roleInNested
  | columnWordInNested
  /-- The fields of a type are asked for that is not declared. -/
  | unknownType (type : String)
deriving DecidableEq

def DeclarationFault.message : DeclarationFault → String
  | .argumentsExpected heading =>
    "expected attribute arguments in parentheses: #[" ++ heading ++ "(...)]"
  | .listExpected heading => "expected parentheses: #[" ++ heading ++ "(...)]"
  | .equalsExpected => "expected `=`"
  | .commaExpected => "expected `,`"
  | .stringExpected => "expected a string literal"
  | .groupExpected true => "unexpected end of input, expected parentheses"
  | .groupExpected false => "expected parentheses"
  | .itemExpected => "unexpected end of input, expected nested attribute"
  | .unsupportedTypeSetting => "unsupported saga container attribute"
  | .unsupportedFieldSetting => "unsupported saga field attribute"
  | .notRecord => "saga types must be structs"
  | .namelessFields => "saga types must be structs with named fields"
  | .secondKey => "only one field can be the correlation id"
  | .secondVersion => "only one field can be the version"
  | .noKey => "Saga requires a `correlation_id` field or one marked #[saga(correlation_id)]"
  | .roleInNested => "nested fields cannot be the correlation id or version"
  | .columnWordInNested => "column prefixes can only be declared on the saga type"
  | .unknownType type => type

end Sagas
