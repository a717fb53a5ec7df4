/-! The database engines that sagas can be kept in. -/
namespace Sagas

/-- An engine family. -/
inductive Provider where
  | sqlServer
  | postgres
deriving DecidableEq, Inhabited

/-- The name of the engine in messages. -/
def Provider.title : Provider → String
  | .sqlServer => "SqlServer"
  | .postgres => "Postgres"

end Sagas
