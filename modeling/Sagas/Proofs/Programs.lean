import Sagas.Context

/-! Properties of programs that the operations of a context have as soon as its statements do, among
them that nothing but entries of a kind is written to a log. -/
namespace Sagas

/-- A property of programs that is kept when programs are put together. -/
structure Compositional {σ : Type} (P : (α : Type) → StateM σ α → Prop) : Prop where
  pure {α : Type} (a : α) : P α (Pure.pure a)
  bind {α β : Type} {first : StateM σ α} {next : α → StateM σ β} :
    P α first → (∀ a, P β (next a)) → P β (first >>= next)

namespace Compositional

open Context

variable {S σ : Type} [Saga S] {P : (α : Type) → StateM σ α → Prop} {t : Transaction σ}

/-! ## Reading -/

theorem fetchAll (h : Compositional P) (hf : ∀ c, P _ (t.fetch c)) (m : Metadata) (c : Command) :
    P _ (Context.fetchAll (S := S) t m c) := by
  refine h.bind (hf c) ?_
  intro answer
  cases answer with
  | error e => exact h.pure _
  | ok records => exact h.pure _

theorem load (h : Compositional P) (hf : ∀ c, P _ (t.fetch c)) (f : Formatter) (id : Uuid) :
    P _ (loadWith (S := S) t f id) := by
  rw [loadWith]
  cases f.metadata.command f.load id none none with
  | error fault => exact h.pure _
  | ok c => exact h.bind (h.fetchAll hf f.metadata c) fun _ => h.pure _

theorem query (h : Compositional P) (hf : ∀ c, P _ (t.fetch c)) (f : Formatter) (filter : Filter) :
    P _ (queryWith (S := S) t f filter) := by
  rw [queryWith]
  cases f.query filter with
  | error fault => exact h.pure _
  | ok c => exact h.fetchAll hf f.metadata c

/-! ## Writing -/

variable {m : Metadata} {operation : WriteOperation} {statement : Statement}

theorem send (h : Compositional P) (he : ∀ c, P _ (t.execute c)) (version : Option Int32) (s : S) :
    P _ (Context.send t m operation statement version s) := by
  rw [Context.send]
  cases writeCommand m statement version s with
  | error fault => exact h.pure _
  | ok c =>
    refine h.bind (he c) ?_
    intro answer
    match answer with
    | .error e => exact h.pure _
    | .ok 0 => exact h.pure _
    | .ok (n + 1) => exact h.pure _

theorem write (h : Compositional P) (he : ∀ c, P _ (t.execute c)) (s : S) :
    P _ (Context.write t m operation statement s) := by
  rw [Context.write]
  split
  · dsimp only
    cases nextVersion? ((Saga.version? s).getD 0) with
    | none => exact h.pure _
    | some next =>
      refine h.bind (h.send he _ _) ?_
      intro result
      cases result with
      | error e => exact h.pure _
      | ok => exact h.pure _
  · exact h.bind (h.send he _ _) fun _ => h.pure _

theorem perform (h : Compositional P) (he : ∀ c, P _ (t.execute c)) (f : Formatter)
    (operation : WriteOperation) (s : S) : P _ ((ofFormatter t f).perform operation s) := by
  cases operation with
  | insert => exact h.write he s
  | update => exact h.write he s
  | delete => exact h.write he s

end Compositional

/-! ## Logs -/

/-- A program that adds entries of a kind to a log, and no others, wherever it starts. -/
def Appends {σ κ α : Type} (log : σ → List κ) (kind : κ → Bool) (program : StateM σ α) : Prop :=
  ∀ w, ∃ entries, log (program w).2 = log w ++ entries ∧ ∀ entry ∈ entries, kind entry = true

namespace Appends

variable {σ κ α β : Type} {log : σ → List κ} {kind : κ → Bool}

theorem silent {program : StateM σ α} (h : ∀ w, log (program w).2 = log w) :
    Appends log kind program := by
  intro w
  exact ⟨[], by rw [h, List.append_nil], by simp⟩

theorem single {program : StateM σ α} {entry : α → κ}
    (h : ∀ w, log (program w).2 = log w ++ [entry (program w).1])
    (hk : ∀ a, kind (entry a) = true) : Appends log kind program := by
  intro w
  refine ⟨[entry (program w).1], h w, ?_⟩
  intro e he
  rw [List.mem_singleton.mp he]
  exact hk _

theorem bind {first : StateM σ α} {next : α → StateM σ β} (hf : Appends log kind first)
    (hn : ∀ a, Appends log kind (next a)) : Appends log kind (first >>= next) := by
  intro w
  obtain ⟨before, hbefore, hb⟩ := hf w
  obtain ⟨after, hafter, ha⟩ := hn (first w).1 (first w).2
  refine ⟨before ++ after, ?_, ?_⟩
  · rw [← List.append_assoc, ← hbefore]
    exact hafter
  · intro entry hentry
    rcases List.mem_append.mp hentry with hentry | hentry
    · exact hb entry hentry
    · exact ha entry hentry

theorem compositional (log : σ → List κ) (kind : κ → Bool) :
    Compositional fun α (program : StateM σ α) => Appends log kind program where
  pure _ := silent fun _ => rfl
  bind := bind

end Appends

end Sagas
