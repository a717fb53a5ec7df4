import Sagas.Saga
import Sagas.Sql.Formatter
import Sagas.Transaction

/-! Reading and writing sagas within one transaction. -/
namespace Sagas

/-! ## Binding -/

namespace Metadata

/-- The value of a field of a document: null where the document has none. -/
def fieldValue (m : Metadata) (document : Option Json) (path : String) :
    Except SerializationFault Value :=
  match document.bind (·.lookup path), m.fieldType? path with
  | none, _ => .ok .null
  | some json, some type => Value.ofJson type json
  | some json, none => .ok (Value.infer json)

/-- The parameter of a binding, for an instance with the given key, version and document. -/
def fill (m : Metadata) (id : Uuid) (version : Option Int32) (document : Option Json)
    (b : Binding) : Except SerializationFault Parameter :=
  match b.source with
  | .correlationId => .ok ⟨b.key, .uuid id, some .uuid⟩
  | .version =>
    let value :=
      match version with
      | some v => .int v.toInt64
      | none => .null
    .ok ⟨b.key, value, some .int⟩
  | .field path => (m.fieldValue document path).map fun value => ⟨b.key, value, m.fieldType? path⟩

/-- The command of a statement, with the values of an instance in the order of its plan. -/
def command (m : Metadata) (s : Statement) (id : Uuid) (version : Option Int32)
    (document : Option Json) : Except SerializationFault Command :=
  (s.bindings.mapM (m.fill id version document)).map fun parameters => ⟨s.sql, parameters⟩

end Metadata

/-! ## Contexts -/

/-- The operations of a unit of work. A write returns the instance as the call leaves it. -/
structure Context (S σ : Type) where
  /-- Reads one instance by its key and locks its row. -/
  load : Uuid → StateM σ (Except StorageError (Option S))
  /-- Reads every instance that a filter describes and locks the rows. -/
  query : Filter → StateM σ (Except StorageError (List S))
  insert : S → StateM σ (Except StorageError Unit × S)
  update : S → StateM σ (Except StorageError Unit × S)
  delete : S → StateM σ (Except StorageError Unit × S)
  commit : StateM σ (Except StorageError Unit)
  rollback : StateM σ (Except StorageError Unit)

namespace Context

variable {S σ : Type}

/-- The write that an operation names. -/
def perform (context : Context S σ) :
    WriteOperation → S → StateM σ (Except StorageError Unit × S)
  | .insert => context.insert
  | .update => context.update
  | .delete => context.delete

variable [Saga S]

/-- The instance that a row holds. -/
def rebuild (m : Metadata) (record : Record) : Except StorageError S :=
  match Saga.decode? (S := S) (.object (m.materialize record)) with
  | some s => .ok s
  | none => .error (.serialization .document)

/-- Runs a query and rebuilds every row: one that cannot be rebuilt fails the whole read. -/
def fetchAll (t : Transaction σ) (m : Metadata) (c : Command) :
    StateM σ (Except StorageError (List S)) := do
  match ← t.fetch c with
  | .error e => return .error e
  | .ok records => return records.mapM (rebuild m)

def loadWith (t : Transaction σ) (f : Formatter) (id : Uuid) :
    StateM σ (Except StorageError (Option S)) := do
  match f.metadata.command f.load id none none with
  | .error fault => return .error (.serialization fault)
  | .ok c => return (← fetchAll t f.metadata c).map List.head?

def queryWith (t : Transaction σ) (f : Formatter) (filter : Filter) :
    StateM σ (Except StorageError (List S)) := do
  match f.query filter with
  | .error fault => return .error (.unsupported fault)
  | .ok c => fetchAll t f.metadata c

/-- The command that writes an instance with the given version. -/
def writeCommand (m : Metadata) (statement : Statement) (version : Option Int32) (s : S) :
    Except SerializationFault Command :=
  match Saga.encode? s with
  | none => .error .document
  | some document => m.command statement (Saga.correlationId s) version (some document)

/-- Writes an instance with the given version. Touching no row is a lost race. -/
def send (t : Transaction σ) (m : Metadata) (operation : WriteOperation) (statement : Statement)
    (version : Option Int32) (s : S) : StateM σ (Except StorageError Unit) := do
  match writeCommand m statement version s with
  | .error fault => return .error (.serialization fault)
  | .ok c =>
    match ← t.execute c with
    | .error e => return .error e
    | .ok 0 => return .error (.concurrency operation m.sagaType (Saga.correlationId s))
    | .ok _ => return .ok ()

/-- The version after a given one; the greatest has none. -/
def nextVersion? (version : Int32) : Option Int32 :=
  if version = Int32.maxValue then none else some (version + 1)

/-- Writes an instance. Where writes are guarded, the version is advanced before and set back when
the write fails; a missing version counts as zero. -/
def write (t : Transaction σ) (m : Metadata) (operation : WriteOperation) (statement : Statement)
    (s : S) : StateM σ (Except StorageError Unit × S) := do
  if m.isVersioned then
    let current := (Saga.version? s).getD 0
    match nextVersion? current with
    | none => return (.error (.versionOverflow m.sagaType (Saga.correlationId s) current), s)
    | some next =>
      let advanced := Saga.setVersion next s
      match ← send t m operation statement (some next) advanced with
      | .ok () => return (.ok (), advanced)
      | .error e => return (.error e, Saga.setVersion current advanced)
  else
    return (← send t m operation statement (Saga.version? s) s, s)

/-- The context that runs a formatter's statements on a transaction. -/
def ofFormatter (t : Transaction σ) (f : Formatter) : Context S σ where
  load := loadWith t f
  query := queryWith t f
  insert := write t f.metadata .insert f.insert
  update := write t f.metadata .update f.update
  delete := write t f.metadata .delete f.delete
  commit := t.commit
  rollback := t.rollback

end Context

end Sagas
