import Sagas.Text.Case

/-! The rules by which the fields of a declaration are named in documents. -/
namespace Sagas

/-- A rule for all fields of a declaration. -/
inductive NamingRule where
  | pascal
  | camel
  | lower
  | upper
  | kebab
  | screamingKebab
deriving DecidableEq, Inhabited

namespace NamingRule

/-- The rule with the given name; every other name leaves fields as they are declared. -/
def ofName? : String → Option NamingRule
  | "PascalCase" => some .pascal
  | "camelCase" => some .camel
  | "lowercase" => some .lower
  | "UPPERCASE" => some .upper
  | "SCREAMING_SNAKE_CASE" => some .upper
  | "kebab-case" => some .kebab
  | "SCREAMING-KEBAB-CASE" => some .screamingKebab
  | _ => none

/-- The words between underscores, each with a capital. -/
def pascalCase (cs : List Char) : List Char :=
  (cs.splitOn '_').flatMap Text.upperFirst

/-- The text without underscores, where an ASCII letter after one becomes a capital unless nothing
is written before it. `started` tells whether something is, `capital` whether an underscore is
pending. -/
def camelCase (started capital : Bool) : List Char → List Char
  | [] => []
  | c :: cs =>
    if c = '_' then camelCase started started cs
    else (if capital then c.toUpper else c) :: camelCase true false cs

def dashed (name : String) : String :=
  String.ofList (name.toList.map fun c => if c = '_' then '-' else c)

/-- The name that a field has under the rule. -/
def apply (rule : NamingRule) (name : String) : String :=
  match rule with
  | .pascal => String.ofList (pascalCase name.toList)
  | .camel => String.ofList (camelCase false false name.toList)
  | .lower => Text.lower name
  | .upper => Text.upper name
  | .kebab => dashed name
  | .screamingKebab => Text.upper (dashed name)

/-- The name that a field has under the rule of the given name, if any. -/
def applyNamed (rule : Option String) (name : String) : String :=
  match rule.bind ofName? with
  | some rule => rule.apply name
  | none => name

end NamingRule

end Sagas
