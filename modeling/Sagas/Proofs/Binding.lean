import Mathlib.Data.List.Forall2
import Sagas.Context
import Sagas.Proofs.AddedParameters

/-! What the plans of the generated statements take their values from, and what commands are
given. -/
namespace Sagas

/-! ## Fields of a plan -/

/-- The path of a source that is a field. -/
def BindingSource.path? : BindingSource → Option String
  | .field path => some path
  | _ => none

/-- The fields that a statement is given, in the order of its plan. -/
def Statement.boundPaths (statement : Statement) : List String :=
  statement.bindings.filterMap (·.source.path?)

namespace Schema

variable (s : Schema)

theorem bind_sources (sources : List (String × BindingSource)) :
    (s.bind sources).map (·.source) = sources.map Prod.snd :=
  calc (s.bind sources).map (·.source)
      = (sources.zipIdx.map Prod.fst).map Prod.snd := by simp only [Schema.bind, List.map_map]; rfl
    _ = sources.map Prod.snd := by rw [List.zipIdx_map_fst]

theorem bind_boundPaths (sql : String) (sources : List (String × BindingSource)) :
    Statement.boundPaths ⟨sql, s.bind sources⟩ = (sources.map Prod.snd).filterMap (·.path?) := by
  rw [← s.bind_sources, List.filterMap_map]
  rfl

theorem writeSources_paths :
    ((s.keySources ++ s.fieldSources).map Prod.snd).filterMap (·.path?) =
      s.metadata.fields.map (·.path) := by
  have hk : (s.keySources.map Prod.snd).filterMap (·.path?) = [] := by
    cases hv : s.metadata.isVersioned <;> simp [keySources, hv, BindingSource.path?]
  rw [List.map_append, List.filterMap_append, hk, List.nil_append, fieldSources]
  simp [List.filterMap_map, Function.comp_def, BindingSource.path?]

/-- An insert is given the fields of the metadata. -/
theorem insertStatement_boundPaths :
    s.insertStatement.boundPaths = s.metadata.fields.map (·.path) := by
  rw [insertStatement_eq, bind_boundPaths, writeSources_paths]

/-- An update is given the fields of the metadata. -/
theorem updateStatement_boundPaths :
    s.updateStatement.boundPaths = s.metadata.fields.map (·.path) := by
  rw [updateStatement_eq, bind_boundPaths, writeSources_paths]

/-- The sources of the values of a write, with their natural names. -/
def writeSources (operation : WriteOperation) : List (String × BindingSource) :=
  match operation with
  | .insert | .update => s.keySources ++ s.fieldSources
  | .delete => s.keySources

theorem statement_bindings (operation : WriteOperation) :
    (s.formatter.statement operation).bindings = s.bind (s.writeSources operation) := by
  cases operation with
  | insert => exact s.insertStatement_bindings
  | update => exact s.updateStatement_bindings
  | delete => exact s.deleteStatement_bindings

/-- In a versioned schema the plan of every write begins with the key and the version. -/
theorem bind_writeSources (hv : s.metadata.isVersioned = true) (operation : WriteOperation) :
    ∃ rest, s.bind (s.writeSources operation) =
      ⟨s.idKey, .correlationId⟩ :: ⟨s.versionKey, .version⟩ :: rest := by
  have hk : s.keySources = [(keyParameter, .correlationId), (versionParameter, .version)] := by
    simp [keySources, hv]
  have hbind : ∀ rest, ∃ rest', s.bind (s.keySources ++ rest) =
      ⟨s.idKey, .correlationId⟩ :: ⟨s.versionKey, .version⟩ :: rest' := fun rest => by
    rw [hk]
    exact ⟨_, rfl⟩
  cases operation with
  | insert => exact hbind s.fieldSources
  | update => exact hbind s.fieldSources
  | delete =>
    have hnil := hbind []
    rwa [List.append_nil] at hnil

end Schema

/-! ## Commands -/

/-- The value that a command gives for a parameter. -/
def Command.bound? (c : Command) (key : ParameterKey) : Option Value :=
  (c.parameters.find? (·.key = key)).map (·.value)

namespace Metadata

variable {m : Metadata} {id : Uuid} {version : Option Int32} {document : Option Json}

theorem command_eq_ok {statement : Statement} {c : Command}
    (h : m.command statement id version document = .ok c) :
    c.sql = statement.sql ∧
      statement.bindings.mapM (m.fill id version document) = .ok c.parameters := by
  rw [command] at h
  cases hp : statement.bindings.mapM (m.fill id version document) with
  | error fault => rw [hp] at h; cases h
  | ok parameters => rw [hp] at h; cases h; exact ⟨rfl, rfl⟩

end Metadata

theorem exceptMap_eq_ok_iff {α β ε : Type} {f : α → β} {x : Except ε α} {b : β} :
    x.map f = .ok b ↔ ∃ a, x = .ok a ∧ b = f a := by
  cases x <;> simp [Except.map, eq_comm]

theorem exceptMap_eq_error_iff {α β ε : Type} {f : α → β} {x : Except ε α} {e : ε} :
    x.map f = .error e ↔ x = .error e := by
  cases x <;> simp [Except.map]

/-- A list is mapped without an error only if its first element and the rest are. -/
theorem mapM_cons_eq_ok {α β ε : Type} {f : α → Except ε β} {a : α} {rest : List α} {bs : List β}
    (h : (a :: rest).mapM f = .ok bs) :
    ∃ b tail, f a = .ok b ∧ rest.mapM f = .ok tail ∧ bs = b :: tail := by
  rw [List.mapM_cons] at h
  cases ha : f a with
  | error e => rw [ha] at h; cases h
  | ok b =>
    cases ht : rest.mapM f with
    | error e => rw [ha, ht] at h; cases h
    | ok tail => rw [ha, ht] at h; cases h; exact ⟨b, tail, rfl, rfl, rfl⟩

/-- A list is mapped without an error exactly if each of its elements is. -/
theorem mapM_eq_ok_iff {α β ε : Type} {f : α → Except ε β} {as : List α} {bs : List β} :
    as.mapM f = .ok bs ↔ List.Forall₂ (fun a b => f a = .ok b) as bs := by
  constructor
  · intro h
    induction as generalizing bs with
    | nil => cases h; exact .nil
    | cons a rest ih =>
      obtain ⟨b, tail, ha, ht, rfl⟩ := mapM_cons_eq_ok h
      exact .cons ha (ih ht)
  · intro h
    induction h with
    | nil => rfl
    | cons ha _ ih => rw [List.mapM_cons, ha, ih]; rfl

theorem map_eq_map_of_forall₂ {α β γ : Type} {f : α → γ} {g : β → γ} {as : List α} {bs : List β}
    (h : List.Forall₂ (fun a b => f a = g b) as bs) : as.map f = bs.map g := by
  rw [← List.forall₂_eq_eq_eq, List.forall₂_map_left_iff, List.forall₂_map_right_iff]
  exact h

theorem exists_mapM_eq_ok_iff {α β ε : Type} {f : α → Except ε β} {as : List α} :
    (∃ bs, as.mapM f = .ok bs) ↔ ∀ a ∈ as, ∃ b, f a = .ok b := by
  simp only [mapM_eq_ok_iff]
  induction as with
  | nil => simp
  | cons a rest ih =>
    simp only [List.forall₂_cons_left_iff, List.forall_mem_cons, ← ih]
    constructor
    · rintro ⟨_, b, tail, ha, hrest, rfl⟩
      exact ⟨⟨b, ha⟩, tail, hrest⟩
    · rintro ⟨⟨b, ha⟩, tail, hrest⟩
      exact ⟨b :: tail, b, tail, ha, hrest, rfl⟩

/-- A list fails exactly with the error of an element before which there is no other. -/
theorem mapM_eq_error_iff {α β ε : Type} {f : α → Except ε β} {as : List α} {e : ε} :
    as.mapM f = .error e ↔ ∃ before a after, as = before ++ a :: after ∧
      (∀ b ∈ before, ∃ x, f b = .ok x) ∧ f a = .error e := by
  constructor
  · intro h
    induction as with
    | nil => cases h
    | cons a rest ih =>
      rw [List.mapM_cons] at h
      cases ha : f a with
      | error e' =>
        rw [ha] at h
        cases h
        exact ⟨[], a, rest, rfl, by simp, ha⟩
      | ok x =>
        have hrest : rest.mapM f = .error e := by
          cases ht : rest.mapM f with
          | error e' => rw [ha, ht] at h; cases h; rfl
          | ok bs => rw [ha, ht] at h; cases h
        obtain ⟨before, a', after, rfl, hbefore, ha'⟩ := ih hrest
        exact ⟨a :: before, a', after, rfl, List.forall_mem_cons.mpr ⟨⟨x, ha⟩, hbefore⟩, ha'⟩
  · rintro ⟨before, a, after, rfl, hbefore, ha⟩
    obtain ⟨bs, hbs⟩ := exists_mapM_eq_ok_iff.mpr hbefore
    rw [List.mapM_append, hbs, List.mapM_cons, ha]
    rfl

/-- An error of a list is one of an element. -/
theorem exists_of_mapM_eq_error {α β ε : Type} {f : α → Except ε β} {as : List α} {e : ε}
    (h : as.mapM f = .error e) : ∃ a ∈ as, f a = .error e := by
  obtain ⟨before, a, after, rfl, -, ha⟩ := mapM_eq_error_iff.mp h
  exact ⟨a, by simp, ha⟩

/-- A command that runs a statement for the row of a key, given a version. -/
structure Schema.Runs (s : Schema) (statement : Statement) (id : Uuid) (version : Int32)
    (c : Command) : Prop where
  sql : c.sql = statement.sql
  id : c.bound? s.idKey = some (.uuid id)
  version : c.bound? s.versionKey = some (.int version.toInt64)

theorem Schema.idKey_ne_versionKey (s : Schema) : s.idKey ≠ s.versionKey := by
  rw [idKey, versionKey]
  cases s.dialect.parameters with
  | named => exact fun h => absurd h (by simp [ParameterStyle.key, keyParameter, versionParameter])
  | positional => exact fun h => absurd h (by simp [ParameterStyle.key])

/-- Every write of a versioned schema is given the key of its instance and the new version. -/
theorem Context.runs_of_writeCommand {S : Type} [Saga S] {s : Schema}
    (hv : s.metadata.isVersioned = true) {operation : WriteOperation} {version : Int32} {x : S}
    {c : Command}
    (h : writeCommand s.metadata (s.formatter.statement operation) (some version) x = .ok c) :
    s.Runs (s.formatter.statement operation) (Saga.correlationId x) version c := by
  rw [writeCommand] at h
  cases hd : Saga.encode? x with
  | none => rw [hd] at h; cases h
  | some document =>
    rw [hd] at h
    obtain ⟨hsql, hp⟩ := Metadata.command_eq_ok h
    obtain ⟨rest, hb⟩ := s.bind_writeSources hv operation
    rw [s.statement_bindings, hb] at hp
    obtain ⟨p, tail, hid, hp, hc⟩ := mapM_cons_eq_ok hp
    obtain ⟨q, tail, hversion, _, rfl⟩ := mapM_cons_eq_ok hp
    cases hid
    cases hversion
    refine ⟨hsql, ?_, ?_⟩
    · simp [Command.bound?, hc]
    · simp [Command.bound?, hc, s.idKey_ne_versionKey]

end Sagas
