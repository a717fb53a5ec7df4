import Sagas.Proofs.Write
import Sagas.Rehearsal.Script
import Sagas.Samples.Shipment

/-! What a write that fails leaves of its instance: all of it, unless the version was missing. -/
namespace Sagas

namespace Context

variable {S σ : Type} [Saga S]
variable {t : Transaction σ} {m : Metadata} {operation : WriteOperation} {statement : Statement}

/-- An instance whose version was advanced and then set back, a missing one to zero. -/
def setBack (s : S) : S :=
  let current := (Saga.version? s).getD 0
  Saga.setVersion current (Saga.setVersion (current + 1) s)

/-- Whether a write changes the version of its instance before it is sent. -/
def Advances (m : Metadata) (s : S) : Prop :=
  m.isVersioned = true ∧ (Saga.version? s).getD 0 ≠ Int32.maxValue

/-- Wherever a write fails, in the values, in the database or for want of a row, the instance is
the one before, but set back if its version was advanced. -/
theorem write_error_instance {s s' : S} {w w' : σ} {e : StorageError}
    (h : write t m operation statement s w = ((.error e, s'), w')) :
    (¬ Advances m s ∧ s' = s) ∨ (Advances m s ∧ s' = setBack s) := by
  cases hm : m.isVersioned with
  | false =>
    rw [write_of_unversioned hm] at h
    obtain ⟨h, _⟩ := Prod.mk.inj h
    exact Or.inl ⟨fun ha => Bool.false_ne_true (hm.symm.trans ha.1), (Prod.mk.inj h).2.symm⟩
  | true =>
    by_cases hv : (Saga.version? s).getD 0 = Int32.maxValue
    · rw [write_of_greatest hm hv] at h
      obtain ⟨h, _⟩ := Prod.mk.inj h
      exact Or.inl ⟨fun ha => ha.2 hv, (Prod.mk.inj h).2.symm⟩
    · rw [write_of_versioned hm rfl hv] at h
      obtain ⟨h, _⟩ := Prod.mk.inj h
      obtain ⟨hr, hs⟩ := Prod.mk.inj h
      rw [hr] at hs
      exact Or.inr ⟨⟨hm, hv⟩, hs.symm⟩

section
variable [LawfulSaga S]

theorem setBack_of_version? {s : S} {v : Int32} (h : Saga.version? s = some v) : setBack s = s := by
  simp only [setBack, h, Option.getD_some]
  rw [LawfulSaga.setVersion_setVersion, LawfulSaga.setVersion_of_version? h]

theorem setBack_of_none {s : S} (h : Saga.version? s = none) :
    setBack s = Saga.setVersion 0 s := by
  simp only [setBack, h, Option.getD_none]
  rw [LawfulSaga.setVersion_setVersion]

/-- Setting back is the identity on exactly the instances that have a version. -/
theorem setBack_eq_self_iff {s : S} : setBack s = s ↔ Saga.version? s ≠ none := by
  cases h : Saga.version? s with
  | none =>
    rw [setBack_of_none h]
    simp only [ne_eq, not_true_eq_false, iff_false]
    intro hs
    have hv := LawfulSaga.version?_setVersion 0 s
    rw [hs, h] at hv
    cases hv
  | some v => simp [setBack_of_version? h]

end

/-- A write that fails, for whatever reason, returns its instance unchanged exactly if the version
was not advanced or setting it back undoes that. Where the version is a field of its own, this
leaves one exception: a missing version comes back as zero, and nothing else changes. -/
theorem failed_write_keeps_instance_iff {f : Formatter} {s s' : S} {w w' : σ} {e : StorageError}
    (h : (ofFormatter t f).perform operation s w = ((.error e, s'), w')) :
    (s' = s ↔ (Advances f.metadata s → setBack s = s)) ∧
      (LawfulSaga S →
        (s' = s ↔ (f.metadata.isVersioned = true → Saga.version? s ≠ none)) ∧
          (s' ≠ s → s' = Saga.setVersion 0 s)) := by
  rw [perform_ofFormatter] at h
  rcases write_error_instance h with ⟨ha, rfl⟩ | ⟨ha, rfl⟩
  · refine ⟨by simp [ha], fun _ => ⟨⟨fun _ hm hv => ha ⟨hm, ?_⟩, fun _ => rfl⟩, by simp⟩⟩
    rw [hv]
    decide
  · refine ⟨by simp [ha], fun _ => ⟨by simp [setBack_eq_self_iff, ha.1], fun hs => ?_⟩⟩
    exact setBack_of_none (Classical.not_not.mp fun hv => hs (setBack_eq_self_iff.mpr hv))

end Context

/-! ## Shipments -/

namespace Samples.Shipment

/-- The statements of shipments on PostgreSQL. -/
def formatter : Formatter :=
  ((Schema.ofDescriptor .postgres descriptor none none []).toOption.getD default).formatter

/-- Shipments in a database that plays a script. -/
def context : Context Shipment Rehearsal.Script :=
  Context.ofFormatter Rehearsal.Script.transaction formatter

/-- A shipment that was never written. -/
def unsent : Shipment :=
  { shipmentId := ⟨1⟩, revision := none, delivered := false, destination := ⟨1, "dock"⟩ }

/-- A shipment at its third revision survives the loss of the connection during its deletion. -/
theorem failed_deletion_keeps_revision :
    let s : Shipment := { unsent with revision := some 3 }
    (context.perform .delete s { failure := some "lost connection" }).1 =
      (.error (.driver (.reported "lost connection")), s) := by
  intro s
  obtain ⟨s', w', h⟩ : ∃ s' w', context.perform .delete s { failure := some "lost connection" } =
      ((.error (.driver (.reported "lost connection")), s'), w') := ⟨_, _, rfl⟩
  have hs : s' = s :=
    ((Context.failed_write_keeps_instance_iff h).2 inferInstance).1.mpr fun _ => nofun
  rw [h, hs]

/-- An update that meets no row returns a shipment without a revision at revision zero. -/
theorem failed_update_fills_missing_revision :
    (context.perform .update unsent { affected := 0 }).1 =
        (.error (.concurrency .update "Shipment" ⟨1⟩), { unsent with revision := some 0 }) ∧
      ({ unsent with revision := some 0 } : Shipment) ≠ unsent :=
  ⟨rfl, by decide⟩

end Samples.Shipment

end Sagas
