import Sagas.Descriptor

/-! Types whose instances can be stored as sagas. -/
namespace Sagas

/-- A type of sagas: how its instances are declared, written as documents and read back, and how
they carry their key and version. -/
class Saga (S : Type) where
  descriptor : Descriptor
  /-- The document of an instance, unless it cannot be written. -/
  encode? : S → Option Json
  /-- The instance of a document, unless the document does not fit. -/
  decode? : Json → Option S
  correlationId : S → Uuid
  /-- The version, of an instance that has one. -/
  version? : S → Option Int32
  setVersion : Int32 → S → S

/-- A type whose instances carry their version as a field of its own, apart from the key and from
all else. -/
class LawfulSaga (S : Type) [Saga S] : Prop where
  version?_setVersion (v : Int32) (s : S) : Saga.version? (Saga.setVersion v s) = some v
  setVersion_setVersion (v w : Int32) (s : S) :
    Saga.setVersion v (Saga.setVersion w s) = Saga.setVersion v s
  setVersion_of_version? {v : Int32} {s : S} : Saga.version? s = some v → Saga.setVersion v s = s
  correlationId_setVersion (v : Int32) (s : S) :
    Saga.correlationId (Saga.setVersion v s) = Saga.correlationId s

end Sagas
