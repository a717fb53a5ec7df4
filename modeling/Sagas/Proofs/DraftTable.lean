import Sagas.Proofs.VersionTable

/-! A row from one transaction to the next: what was written in a transaction is kept if it commits
and forgotten if it does not. -/
namespace Sagas

/-! ## Parts of a state -/

/-- A part of a state that can be read and replaced. -/
structure Lens (σ τ : Type) where
  get : τ → σ
  set : σ → τ → τ
  get_set (part : σ) (whole : τ) : get (set part whole) = part
  set_get (whole : τ) : set (get whole) whole = whole

section
variable {σ τ α : Type} (l : Lens σ τ)

/-- An action on a part, which leaves the rest as it is. -/
def Lens.zoom (action : StateM σ α) : StateM τ α := fun whole =>
  let (a, part) := action (l.get whole)
  (a, l.set part whole)

def Transaction.zoom (t : Transaction σ) : Transaction τ where
  fetch c := l.zoom (t.fetch c)
  execute c := l.zoom (t.execute c)
  commit := l.zoom t.commit
  rollback := l.zoom t.rollback
  abandon := l.zoom t.abandon

theorem Transaction.zoom_fetch (t : Transaction σ) (c : Command) (whole : τ) :
    (t.zoom l).fetch c whole =
      ((t.fetch c (l.get whole)).1, l.set (t.fetch c (l.get whole)).2 whole) := rfl

theorem Transaction.zoom_execute (t : Transaction σ) (c : Command) (whole : τ) :
    (t.zoom l).execute c whole =
      ((t.execute c (l.get whole)).1, l.set (t.execute c (l.get whole)).2 whole) := rfl

def Connector.zoom (c : Connector σ) : Connector τ where
  provider := c.provider
  start isolation := l.zoom (c.start isolation)
  transaction := c.transaction.zoom l

/-- A database that guards a row does so as a part of a larger state. -/
theorem GuardsRow.zoom {S : Type} [Saga S] {s : Schema} {column : String} {t : Transaction σ}
    {id : Uuid} {stored : σ → Option Int32} (hg : GuardsRow S s column t id stored) :
    GuardsRow S s column (t.zoom l) id fun whole => stored (l.get whole) where
  reads whole c hc hid := by
    obtain ⟨hsame, hrows⟩ := hg.reads (l.get whole) hc hid
    rw [Transaction.zoom_fetch, hsame, l.set_get]
    exact ⟨rfl, hrows⟩
  touches {comparison operation statement v w c whole} ht hr hw hc := by
    obtain ⟨part, he, hs⟩ := hg.touches ht hr hw hc
    refine ⟨l.set part whole, ?_, by rw [l.get_set, hs]⟩
    rw [Transaction.zoom_execute, he]
  refuses {comparison operation statement v c whole} ht hr hw := by
    rw [Transaction.zoom_execute, hg.refuses ht hr hw, l.set_get]

end

/-! ## Commits -/

/-- A database that obeys the statements of a schema on one row, and from one transaction to the
next keeps what was committed: each begins with the `committed` version as the `stored` one, which
takes its place if the transaction commits, and only then. -/
structure CommitsRow (S : Type) {σ : Type} [Saga S] (s : Schema) (column : String)
    (connector : Connector σ) (id : Uuid) (committed stored : σ → Option Int32) : Prop where
  guards : GuardsRow S s column connector.transaction id stored
  begins {isolation : IsolationLevel} {w : σ} : (connector.start isolation w).1 = .ok () →
    stored (connector.start isolation w).2 = committed w
  start_keeps (isolation : IsolationLevel) (w : σ) :
    committed (connector.start isolation w).2 = committed w
  execute_keeps (c : Command) (w : σ) :
    committed (connector.transaction.execute c w).2 = committed w
  commits {w : σ} : (connector.transaction.commit w).1 = .ok () →
    committed (connector.transaction.commit w).2 = stored w
  failed_commit_keeps {w : σ} {e : StorageError} : (connector.transaction.commit w).1 = .error e →
    committed (connector.transaction.commit w).2 = committed w
  rollback_keeps (w : σ) : committed (connector.transaction.rollback w).2 = committed w

/-- A table of versions, and what it becomes if the open transaction commits. -/
structure DraftTable where
  kept : VersionTable
  draft : VersionTable

def DraftTable.draftLens : Lens VersionTable DraftTable where
  get := draft
  set draft w := { w with draft }
  get_set _ _ := rfl
  set_get _ := rfl

namespace Schema

variable (s : Schema) (column : String)

/-- A table of versions with transactions. -/
def draftTable : Connector DraftTable where
  provider := none
  start _ := fun w => (.ok (), { w with draft := w.kept })
  transaction := {
    (s.versionTable column).zoom DraftTable.draftLens with
    commit := fun w => (.ok (), { w with kept := w.draft })
    rollback := fun w => (.ok (), { w with draft := w.kept }) }

variable {s column}

/-- The table keeps every row that it guards. -/
theorem draftTable_commitsRow {S : Type} [Saga S] {id : Uuid}
    (hg : GuardsRow S s column (s.versionTable column) id fun table => table id) :
    CommitsRow S s column (s.draftTable column) id (·.kept id) (·.draft id) where
  guards :=
    let hz := hg.zoom DraftTable.draftLens
    { reads := hz.reads, touches := hz.touches, refuses := hz.refuses }
  begins _ := rfl
  start_keeps _ _ := rfl
  execute_keeps _ _ := rfl
  commits _ := rfl
  failed_commit_keeps h := by cases h
  rollback_keeps _ := rfl

end Schema

end Sagas
