import Sagas.Proofs.Binding
import Sagas.Proofs.Write

/-! What one read does: which instances it makes of the rows that the database returns. -/
namespace Sagas

theorem exists_of_head? {α β ε : Type} {f : α → Except ε β} {as : List α} {b : β}
    (h : (as.mapM f).map List.head? = .ok (some b)) : ∃ a ∈ as, f a = .ok b := by
  cases as with
  | nil => cases h
  | cons a rest =>
    cases hm : (a :: rest).mapM f with
    | error e => rw [hm] at h; cases h
    | ok bs =>
      obtain ⟨b', tail, hb, _, rfl⟩ := mapM_cons_eq_ok hm
      rw [hm] at h
      cases h
      exact ⟨a, List.mem_cons_self, hb⟩

/-- A load needs no instance: all its values can be bound whatever its statement asks for. -/
theorem Metadata.command_of_no_document (m : Metadata) (statement : Statement) (id : Uuid)
    (version : Option Int32) : ∃ c, m.command statement id version none = .ok c := by
  have hfill : ∀ b ∈ statement.bindings, ∃ p, m.fill id version none b = .ok p := by
    rintro ⟨key, source⟩ _
    cases source with
    | correlationId => exact ⟨_, rfl⟩
    | version => exact ⟨_, rfl⟩
    | field path => exact ⟨_, rfl⟩
  obtain ⟨ps, hps⟩ := exists_mapM_eq_ok_iff.mpr hfill
  exact ⟨⟨statement.sql, ps⟩, by rw [command, hps]; rfl⟩

namespace Context

variable {S σ : Type} [Saga S] {t : Transaction σ}

/-- What a read makes of the answer of the database: an instance of every row. -/
def rebuildAll (m : Metadata) (answer : Except StorageError (List Record)) :
    Except StorageError (List S) :=
  answer.bind fun records => records.mapM (rebuild m)

theorem rebuildAll_eq_ok_iff {m : Metadata} {answer : Except StorageError (List Record)}
    {found : List S} :
    rebuildAll m answer = .ok found ↔ ∃ records, answer = .ok records ∧
      List.Forall₂ (fun record x => rebuild m record = .ok x) records found := by
  cases answer with
  | error e => exact ⟨nofun, nofun⟩
  | ok records =>
    refine ⟨fun h => ⟨records, rfl, mapM_eq_ok_iff.mp h⟩, ?_⟩
    rintro ⟨_, ⟨rfl⟩, h⟩
    exact mapM_eq_ok_iff.mpr h

theorem rebuild_eq_error {m : Metadata} {record : Record} {e : StorageError}
    (h : rebuild (S := S) m record = .error e) : e = .serialization .document := by
  rw [rebuild] at h
  cases hd : Saga.decode? (S := S) (.object (m.materialize record)) with
  | some x => rw [hd] at h; cases h
  | none => rw [hd] at h; cases h; rfl

/-- One row that cannot be rebuilt fails the whole read. -/
theorem rebuildAll_of_broken {m : Metadata} {records : List Record} {record : Record}
    (hmem : record ∈ records) (hbroken : ∀ x : S, rebuild m record ≠ .ok x) :
    rebuildAll (S := S) m (.ok records) = .error (.serialization .document) := by
  change records.mapM (rebuild (S := S) m) = _
  induction records with
  | nil => cases hmem
  | cons first rest ih =>
    rw [List.mapM_cons]
    cases hf : rebuild (S := S) m first with
    | error e => rw [rebuild_eq_error hf]; rfl
    | ok x =>
      have hrest : record ∈ rest := by
        rcases List.mem_cons.mp hmem with rfl | hrest
        · exact absurd hf (hbroken x)
        · exact hrest
      rw [ih hrest]
      rfl

theorem fetchAll_eq (m : Metadata) (c : Command) (w : σ) :
    fetchAll (S := S) t m c w = (rebuildAll m (t.fetch c w).1, (t.fetch c w).2) := by
  rw [fetchAll, bind_apply]
  cases (t.fetch c w).1 with
  | error e => rfl
  | ok records => rfl

theorem loadWith_of_command {f : Formatter} {id : Uuid} {c : Command}
    (hc : f.metadata.command f.load id none none = .ok c) (w : σ) :
    loadWith (S := S) t f id w =
      ((rebuildAll f.metadata (t.fetch c w).1).map List.head?, (t.fetch c w).2) := by
  simp only [loadWith, hc]
  rw [bind_apply, fetchAll_eq]
  rfl

theorem queryWith_of_fault {f : Formatter} {filter : Filter} {fault : UnsupportedFault}
    (h : f.query filter = .error fault) (w : σ) :
    queryWith (S := S) t f filter w = (.error (.unsupported fault), w) := by
  simp only [queryWith, h]
  rfl

theorem queryWith_of_command {f : Formatter} {filter : Filter} {c : Command}
    (h : f.query filter = .ok c) (w : σ) :
    queryWith (S := S) t f filter w =
      (rebuildAll f.metadata (t.fetch c w).1, (t.fetch c w).2) := by
  simp only [queryWith, h]
  exact fetchAll_eq _ _ _

end Context

end Sagas
