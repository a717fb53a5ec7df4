import Sagas.Declaration.Basic
import Sagas.Declaration.Naming

/-! What the settings of declarations and fields say. Settings under `saga` are this library's own
and must be known; those under `serde` say how documents are written, and unknown ones are passed
over. -/
namespace Sagas

/-- Settings of a type. -/
structure TypeSettings where
  table : Option String := none
  /-- The name of the rule by which fields are named. -/
  naming : Option String := none
deriving Inhabited

/-- How the columns of a nested object are named: by their own names, after the object's name, or
after a given word. -/
inductive Nesting where
  | plain
  | leafWord
  | word (text : String)
deriving DecidableEq, Inhabited

/-- Settings of a field. -/
structure FieldSettings where
  /-- The name of the field in documents. -/
  key : String
  skip : Bool := false
  correlationId : Bool := false
  version : Bool := false
  json : Bool := false
  column : Option String := none
  nesting : Option Nesting := none
deriving Inhabited

namespace Setting

def name : Setting → String
  | .flag name | .value name _ | .group name _ => name

/-- The string that a setting is given. -/
def string : Setting → Except DeclarationFault String
  | .value _ (.string s) => .ok s
  | .value _ _ => .error .stringExpected
  | .flag _ | .group _ _ => .error .equalsExpected

/-- A setting that stands for itself alone: a comma must follow. -/
def bare {α : Type} (a : α) : Setting → Except DeclarationFault α
  | .flag _ => .ok a
  | .value _ _ | .group _ _ => .error .commaExpected

mutual

/-- Passes over a setting; groups may not be empty. -/
def passOver : Setting → Except DeclarationFault Unit
  | .flag _ | .value _ _ => .ok ()
  | .group _ [] => .error .itemExpected
  | .group _ (item :: rest) => do
    passOver item
    passOverAll rest

def passOverAll : List Setting → Except DeclarationFault Unit
  | [] => .ok ()
  | item :: rest => do
    passOver item
    passOverAll rest

end

/-- The settings in the parentheses after a heading. -/
def items : Setting → Except DeclarationFault (List Setting)
  | .group _ items => .ok items
  | .flag name => .error (.argumentsExpected name)
  | .value name _ => .error (.listExpected name)

/-- Applies `step` to each setting and what comes after it, from left to right. -/
def foldItems {α : Type} (step : α → Setting → List Setting → Except DeclarationFault α) :
    α → List Setting → Except DeclarationFault α
  | a, [] => .ok a
  | a, item :: rest => do
    foldItems step (← step a item rest) rest

end Setting

/-! ## Types -/

namespace TypeSettings

def readSaga (t : TypeSettings) (s : Setting) : Except DeclarationFault TypeSettings :=
  if s.name = "table" then s.string.map fun table => { t with table := some table }
  else .error .unsupportedTypeSetting

def readSerde (t : TypeSettings) (s : Setting) : Except DeclarationFault TypeSettings :=
  match s with
  | .value "rename_all" _ => s.string.map fun rule => { t with naming := some rule }
  | _ => s.passOver.map fun _ => t

def readHeading (t : TypeSettings) (heading : Setting) :
    Except DeclarationFault TypeSettings := do
  if heading.name = "saga" then (← heading.items).foldlM readSaga t
  else if heading.name = "serde" then (← heading.items).foldlM readSerde t
  else return t

/-- Reads the settings of a declaration, a later one replacing an earlier. -/
def read (attributes : List Setting) : Except DeclarationFault TypeSettings :=
  attributes.foldlM readHeading {}

end TypeSettings

/-! ## Fields -/

namespace FieldSettings

/-- The name for writing among the settings of a renaming. -/
def readRename (f : FieldSettings) (s : Setting) : Except DeclarationFault FieldSettings :=
  if s.name = "serialize" then s.string.map fun key => { f with key }
  else s.passOver.map fun _ => f

/-- Reads a setting under `serde`; `rest` is what comes after it. -/
def readSerde (f : FieldSettings) (s : Setting) (rest : List Setting) :
    Except DeclarationFault FieldSettings :=
  if s.name = "rename" then
    match s with
    | .value _ _ => s.string.map fun key => { f with key }
    | .flag _ => .error (.groupExpected rest.isEmpty)
    | .group _ [] => .error .itemExpected
    | .group _ items => items.foldlM readRename f
  else if s.name = "skip" ∨ s.name = "skip_serializing" then s.bare { f with skip := true }
  else s.passOver.map fun _ => f

/-- Reads a setting under `saga`. -/
def readSaga (f : FieldSettings) (s : Setting) : Except DeclarationFault FieldSettings :=
  match s.name with
  | "skip" => s.bare { f with skip := true }
  | "correlation_id" => s.bare { f with correlationId := true }
  | "version" => s.bare { f with version := true }
  | "json" => s.bare { f with json := true }
  | "column" => s.string.map fun column => { f with column := some column }
  | "flatten" => s.bare { f with nesting := some (f.nesting.getD .plain) }
  | "prefix" =>
    match s with
    | .value _ _ => s.string.map fun text => { f with nesting := some (.word text) }
    | _ => s.bare { f with nesting := some .leafWord }
  | _ => .error .unsupportedFieldSetting

def readHeading (f : FieldSettings) (heading : Setting) :
    Except DeclarationFault FieldSettings := do
  if heading.name = "serde" then Setting.foldItems readSerde f (← heading.items)
  else if heading.name = "saga" then (← heading.items).foldlM readSaga f
  else return f

/-- A name without the marks of raw names before it. -/
def plainName : List Char → List Char
  | 'r' :: '#' :: rest => plainName rest
  | cs => cs

/-- Reads the settings of a field, whose name in documents follows the given rule unless it is
renamed. -/
def read (naming : Option String) (f : FieldDeclaration) : Except DeclarationFault FieldSettings :=
  let name := String.ofList (plainName f.name.toList)
  f.settings.foldlM readHeading { key := NamingRule.applyNamed naming name }

end FieldSettings

end Sagas
