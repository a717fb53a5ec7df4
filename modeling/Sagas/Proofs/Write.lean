import Sagas.Context

/-! What one write does: to the instance, to the database, and what it comes to. -/
namespace Sagas

/-- What runs second sees the state that the first left. -/
theorem bind_apply {σ α β : Type} (first : StateM σ α) (second : α → StateM σ β) (w : σ) :
    (first >>= second) w = second (first w).1 (first w).2 := rfl

namespace Context

variable {S σ : Type} [Saga S]
variable {t : Transaction σ} {m : Metadata} {operation : WriteOperation} {statement : Statement}

/-! ## Sending -/

/-- What a write makes of the answer of the database: no touched row is a lost race. -/
def outcomeOf (operation : WriteOperation) (sagaType : String) (id : Uuid) :
    Except StorageError Nat → Except StorageError Unit
  | .error e => .error e
  | .ok 0 => .error (.concurrency operation sagaType id)
  | .ok (_ + 1) => .ok ()

theorem send_of_fault {version : Option Int32} {s : S} {fault : SerializationFault}
    (h : writeCommand m statement version s = .error fault) (w : σ) :
    send t m operation statement version s w = (.error (.serialization fault), w) := by
  simp only [send, h]
  rfl

theorem send_of_command {version : Option Int32} {s : S} {c : Command}
    (h : writeCommand m statement version s = .ok c) (w : σ) :
    send t m operation statement version s w =
      (outcomeOf operation m.sagaType (Saga.correlationId s) (t.execute c w).1,
        (t.execute c w).2) := by
  simp only [send, h]
  rw [bind_apply]
  match (t.execute c w).1 with
  | .error e => rfl
  | .ok 0 => rfl
  | .ok (n + 1) => rfl

/-! ## Writing -/

/-- The instance after a write with an advanced version: set back where the write failed. -/
def settled (current : Int32) (advanced : S) : Except StorageError Unit → S
  | .ok () => advanced
  | .error _ => Saga.setVersion current advanced

theorem write_of_unversioned (hm : m.isVersioned = false) (s : S) (w : σ) :
    write t m operation statement s w =
      (((send t m operation statement (Saga.version? s) s w).1, s),
        (send t m operation statement (Saga.version? s) s w).2) := by
  simp only [write, hm, Bool.false_eq_true, if_false]
  rfl

/-- The greatest version is refused before anything is sent. -/
theorem write_of_greatest (hm : m.isVersioned = true) {s : S}
    (hv : (Saga.version? s).getD 0 = Int32.maxValue) (w : σ) :
    write t m operation statement s w =
      ((.error (.versionOverflow m.sagaType (Saga.correlationId s) Int32.maxValue), s), w) := by
  simp only [write, hm, if_true, hv, nextVersion?]
  rfl

theorem write_of_versioned (hm : m.isVersioned = true) {s : S} {current : Int32}
    (hc : (Saga.version? s).getD 0 = current) (hv : current ≠ Int32.maxValue) (w : σ) :
    write t m operation statement s w =
      let advanced := Saga.setVersion (current + 1) s
      let sent := send t m operation statement (some (current + 1)) advanced w
      ((sent.1, settled current advanced sent.1), sent.2) := by
  simp only [write, hm, if_true, hc, nextVersion?, hv, if_false]
  rw [bind_apply]
  match (send t m operation statement (some (current + 1))
    (Saga.setVersion (current + 1) s) w).1 with
  | .error e => rfl
  | .ok () => rfl

/-! ## What is sent -/

/-- The version that a write sends: the next one where writes are guarded. -/
def sentVersion (m : Metadata) (s : S) : Option Int32 :=
  if m.isVersioned then some ((Saga.version? s).getD 0 + 1) else Saga.version? s

/-- The instance that a write sends: at its next version where writes are guarded. -/
def sentInstance (m : Metadata) (s : S) : S :=
  if m.isVersioned then Saga.setVersion ((Saga.version? s).getD 0 + 1) s else s

/-- The instance that a write returns once it has come to a result. -/
def returnedInstance (m : Metadata) (s : S) (result : Except StorageError Unit) : S :=
  if m.isVersioned then settled ((Saga.version? s).getD 0) (sentInstance m s) result else s

/-- Writes are guarded and the instance has no next version. -/
def Exhausted (m : Metadata) (s : S) : Prop :=
  m.isVersioned = true ∧ (Saga.version? s).getD 0 = Int32.maxValue

theorem write_of_not_exhausted {s : S} (h : ¬ Exhausted m s) (w : σ) :
    write t m operation statement s w =
      let sent := send t m operation statement (sentVersion m s) (sentInstance m s) w
      ((sent.1, returnedInstance m s sent.1), sent.2) := by
  cases hm : m.isVersioned with
  | false =>
    rw [write_of_unversioned hm]
    simp [sentVersion, sentInstance, returnedInstance, hm]
  | true =>
    rw [write_of_versioned hm rfl fun hv => h ⟨hm, hv⟩]
    simp [sentVersion, sentInstance, returnedInstance, hm]

theorem send_keeps {P : σ → Prop} {w : σ} (hw : P w) (he : ∀ c, P (t.execute c w).2)
    (version : Option Int32) (s : S) : P (send t m operation statement version s w).2 := by
  cases hc : writeCommand m statement version s with
  | error fault =>
    rw [send_of_fault hc]
    exact hw
  | ok c =>
    rw [send_of_command hc]
    exact he c

theorem perform_ofFormatter (f : Formatter) (operation : WriteOperation) :
    (ofFormatter (S := S) t f).perform operation =
      write t f.metadata operation (f.statement operation) := by
  cases operation <;> rfl

/-- What the statements of a transaction keep is kept by every write. -/
theorem perform_keeps {P : σ → Prop} {w : σ} (hw : P w) (he : ∀ c, P (t.execute c w).2)
    (f : Formatter) (operation : WriteOperation) (s : S) :
    P ((ofFormatter t f).perform operation s w).2 := by
  rw [perform_ofFormatter]
  by_cases h : Exhausted f.metadata s
  · rw [write_of_greatest h.1 h.2]
    exact hw
  · rw [write_of_not_exhausted h]
    exact send_keeps hw he _ _

end Context

end Sagas
