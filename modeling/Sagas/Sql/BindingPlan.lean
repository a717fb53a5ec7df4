import Sagas.Metadata
import Sagas.Sql.Dialect

/-! Plans of parameters. A parameter is given its key when it is added, wherever in the text its
placeholder comes to stand. -/
namespace Sagas

/-- The parameters that were added so far, in order. -/
structure BindingPlan where
  style : ParameterStyle
  bindings : List Binding := []
deriving DecidableEq, Inhabited

/-- A piece of text, or several, for which parameters are added to a plan. -/
abbrev Planned (α : Type) : Type :=
  StateM BindingPlan α

namespace BindingPlan

/-- Adds a parameter under the key of the next position, and gives its placeholder. -/
def add (name : String) (source : BindingSource) : Planned String :=
  modifyGet fun plan =>
    let key := plan.style.key (plan.bindings.length + 1) name
    (key.placeholder, { plan with bindings := plan.bindings ++ [{ key, source }] })

def addKey : Planned String :=
  add keyParameter .correlationId

def addVersion : Planned String :=
  add versionParameter .version

def addField (f : ResolvedField) : Planned String :=
  add f.parameter (.field f.path)

/-- The statement of a text, with the parameters that were added for it to an empty plan. -/
def statement (style : ParameterStyle) (text : Planned String) : Statement :=
  let (sql, plan) := text.run { style }
  { sql, bindings := plan.bindings }

end BindingPlan

end Sagas
