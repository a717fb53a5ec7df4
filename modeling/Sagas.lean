import Sagas.Rehearsal.Server
import Sagas.Declaration.TypeExpr.Reader
import Sagas.Declaration.Derivation
import Sagas.Rehearsal.Scenario
import Sagas.Sql.Extension
import Sagas.Document
import Sagas.Samples.Order
import Sagas.Samples.Note
import Sagas.Samples.Shipment
import Sagas.Samples.Stamped
import Sagas.Samples.Kitchen
import Sagas.Proofs.Write
import Sagas.Proofs.Read
import Sagas.Proofs.Binding
import Sagas.Proofs.Columns
import Sagas.Proofs.FailedWrite
import Sagas.Proofs.GuardedRow
import Sagas.Proofs.VersionTable
import Sagas.Proofs.LostUpdate
import Sagas.Proofs.Paths
import Sagas.Proofs.Plan
import Sagas.Proofs.RowRoundTrip
import Sagas.Proofs.DriverLog
import Sagas.Proofs.UnitOfWork
import Sagas.Proofs.FilterMeaning
import Sagas.Proofs.CallOutcomes
import Sagas.Proofs.VersionCount
import Sagas.Proofs.FieldNames
import Sagas.Proofs.QueryColumns
import Sagas.Proofs.Positions
import Sagas.Proofs.Outlines
import Sagas.Proofs.UndoneUnits
import Sagas.Proofs.ValueRoundTrip
import Sagas.Proofs.PathSegments
import Sagas.Proofs.ColumnChoice
import Sagas.Proofs.Conjuncts
import Sagas.Proofs.ArgumentOrder
import Sagas.Proofs.Clashes
import Sagas.Proofs.DeclaredColumns
import Sagas.Proofs.OffsetlessTexts
import Sagas.Proofs.FieldRoles
import Sagas.Proofs.RoleOrder
import Sagas.Proofs.StoredIntegers
import Sagas.Proofs.Programs
import Sagas.Proofs.ServerLog
import Sagas.Proofs.ServerUnits
import Sagas.Proofs.Assignments
import Sagas.Proofs.QuotedNames
import Sagas.Proofs.Layout
import Sagas.Proofs.MissedValues
import Sagas.Proofs.DerivedPaths
import Sagas.Proofs.PathInsertion
import Sagas.Proofs.BlamedPosition
import Sagas.Proofs.ContainerTypes
import Sagas.Proofs.NameCharacters
import Sagas.Proofs.PlainParameters
