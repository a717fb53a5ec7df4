import Sagas.Postgres.Binding
import Sagas.Proofs.FilterMeaning
import Sagas.Proofs.Plan
import Sagas.Proofs.VersionTable

/-! Commands of positional schemas at a PostgreSQL server: their parameters stand in the order of
their positions, so that only a value can keep them from being bound. -/
namespace Sagas

/-- Parameters at the positions from one on, in order. -/
def Command.InOrder (c : Command) : Prop :=
  c.parameters.map (·.key) = (List.range' 1 c.parameters.length).map .positional

namespace Postgres

/-! ## Values that are refused -/

/-- An integer for a column of 32 bits that does not fit there. -/
inductive OutOfRange : Parameter → DriverFault → Prop
  | intro {key : ParameterKey} {n : Int64} : fitsInt4 n = false →
      OutOfRange ⟨key, .int n, some .int⟩ (.integerRange n)

/-- A text for a column of identifiers that is none. -/
inductive NoIdentifier : Parameter → DriverFault → Prop
  | intro {key : ParameterKey} {text : String} : Uuid.parse? text = none →
      NoIdentifier ⟨key, .string text, some .uuid⟩ (.uuidText text)

theorem argument_eq_error {p : Parameter} {fault : DriverFault}
    (h : argument p.value p.type = .error fault) : OutOfRange p fault ∨ NoIdentifier p fault := by
  obtain ⟨key, value, type⟩ := p
  simp only [argument] at h
  split at h
  · split at h
    · cases h
    · rename_i hparse
      cases h
      exact Or.inr (.intro hparse)
  · cases h
  · cases h
  · split at h
    · cases h
    · rename_i hfits
      cases h
      exact Or.inl (.intro (by simpa using hfits))
  all_goals cases h

/-- No value of a field is refused as an identifier: one that is none does not become a value. -/
theorem argument_ofJson_eq_error {key : ParameterKey} {type : FieldType} {json : Json}
    {value : Value} {fault : DriverFault} (hv : Value.ofJson type json = .ok value)
    (h : argument value (some type) = .error fault) :
    OutOfRange ⟨key, value, some type⟩ fault := by
  rcases argument_eq_error (p := ⟨key, value, some type⟩) h with hr | hn
  · exact hr
  · cases hn with
    | intro hparse =>
      cases json with
      | string s =>
        simp only [Value.ofJson, Value.require] at hv
        cases hid : Uuid.parse? s <;> simp [hid] at hv
      | _ => cases hv

theorem argument_of_untyped (value : Value) (fault : DriverFault) :
    argument value none ≠ .error fault := by
  intro h
  rcases argument_eq_error (p := ⟨default, value, none⟩) h with hr | hn
  · cases hr
  · cases hn

/-! ## Binding -/

theorem mapM_positionOf {positions : List Nat} {ps : List Parameter}
    (h : ps.map (·.key) = positions.map .positional) :
    ps.mapM positionOf = .ok (positions.zip ps) := by
  induction ps generalizing positions with
  | nil =>
    rw [List.zip_nil_right]
    rfl
  | cons p rest ih =>
    cases positions with
    | nil => cases h
    | cons position positions =>
      obtain ⟨hkey, hkeys⟩ := List.cons.inj h
      have hp : positionOf p = .ok (position, p) := by simp only [positionOf, hkey]
      rw [List.mapM_cons, hp, ih hkeys]
      rfl

theorem argumentsFrom_zip (start : Nat) (ps : List Parameter) :
    argumentsFrom start ((List.range' start ps.length).zip ps) =
      (ps.mapM fun p => argument p.value p.type).mapError .driver := by
  induction ps generalizing start with
  | nil => rfl
  | cons p rest ih =>
    simp only [List.length_cons, List.range'_succ, List.zip_cons_cons]
    rw [argumentsFrom, ih, List.mapM_cons]
    cases argument p.value p.type with
    | error fault => simp [bind, Except.bind, Except.mapError]
    | ok a =>
      cases rest.mapM fun p => argument p.value p.type <;>
        simp [bind, Except.bind, Except.mapError, pure, Except.pure]

theorem zip_range'_pairwise (start : Nat) (ps : List Parameter) :
    ((List.range' start ps.length).zip ps).Pairwise fun a b => decide (a.1 ≤ b.1) := by
  have hsorted : (List.range' start ps.length).Pairwise (· ≤ ·) :=
    List.pairwise_le_range'
  have hfirst : ((List.range' start ps.length).zip ps).map Prod.fst = List.range' start ps.length :=
    List.map_fst_zip (by simp)
  rw [← hfirst, List.pairwise_map] at hsorted
  exact hsorted.imp fun h => decide_eq_true h

/-- Parameters in order are bound one after the other. -/
theorem bindArguments_of_inOrder {ps : List Parameter}
    (h : ps.map (·.key) = (List.range' 1 ps.length).map .positional) :
    bindArguments ps = (ps.mapM fun p => argument p.value p.type).mapError .driver := by
  rw [bindArguments, mapM_positionOf h]
  change argumentsFrom 1 (List.mergeSort _ _) = _
  rw [List.mergeSort_of_pairwise (zip_range'_pairwise 1 ps), argumentsFrom_zip]

/-- What is known of binding the parameters of a command: each has its own argument at its own
place, and only a value can be refused, in the ways that are given. -/
structure Binds (c : Command) (refused : Parameter → DriverFault → Prop) : Prop where
  order : c.InOrder
  arguments : ∀ args, bindArguments c.parameters = .ok args ↔
    List.Forall₂ (fun p a => argument p.value p.type = .ok a) c.parameters args
  count : ∀ args, bindArguments c.parameters = .ok args → args.length = c.parameters.length
  configured : ∀ fault, bindArguments c.parameters ≠ .error (.configuration fault)
  failures : ∀ e, bindArguments c.parameters = .error e →
    ∃ p ∈ c.parameters, ∃ fault, e = .driver fault ∧ refused p fault

theorem Binds.of_inOrder {c : Command} {refused : Parameter → DriverFault → Prop}
    (h : c.InOrder) (hr : ∀ p ∈ c.parameters, ∀ fault,
      argument p.value p.type = .error fault → refused p fault) : Binds c refused := by
  have hbind := bindArguments_of_inOrder h
  have harguments : ∀ args, bindArguments c.parameters = .ok args ↔
      List.Forall₂ (fun p a => argument p.value p.type = .ok a) c.parameters args := by
    intro args
    rw [hbind, ← mapM_eq_ok_iff]
    cases c.parameters.mapM fun p => argument p.value p.type <;> simp [Except.mapError]
  have hfailures : ∀ e, bindArguments c.parameters = .error e →
      ∃ p ∈ c.parameters, ∃ fault, e = .driver fault ∧ refused p fault := by
    intro e he
    rw [hbind] at he
    cases hm : c.parameters.mapM fun p => argument p.value p.type with
    | ok args => rw [hm] at he; cases he
    | error fault =>
      rw [hm] at he
      cases he
      obtain ⟨p, hp, hfault⟩ := exists_of_mapM_eq_error hm
      exact ⟨p, hp, fault, rfl, hr p hp fault hfault⟩
  exact {
    order := h
    arguments := harguments
    count := fun args hargs => ((harguments args).mp hargs).length_eq.symm
    configured := by
      intro fault hfault
      obtain ⟨_, _, _, he, _⟩ := hfailures _ hfault
      cases he
    failures := hfailures }

end Postgres

/-! ## Statements -/

theorem exists_related_of_mem {α β : Type} {R : α → β → Prop} {as : List α} {bs : List β} {b : β}
    (h : List.Forall₂ R as bs) (hb : b ∈ bs) : ∃ a, R a b := by
  induction h with
  | nil => cases hb
  | @cons a b' _ _ hr _ ih =>
    rcases List.mem_cons.mp hb with rfl | hb
    · exact ⟨a, hr⟩
    · exact ih hb

section
variable {s : Schema} {id : Uuid} {version : Option Int32} {document : Option Json}
variable {statement : Statement} {c : Command}

/-- What a binding of a plan becomes: the parameter with its key, whose value is refused only if it
is that of a field and an integer out of range. -/
structure Binding.Fills (b : Binding) (p : Parameter) : Prop where
  key : p.key = b.key
  refused : ∀ fault, Postgres.argument p.value p.type = .error fault →
    b.source.path?.isSome ∧ Postgres.OutOfRange p fault

theorem Postgres.fitsInt4_toInt64 (v : Int32) : fitsInt4 v.toInt64 = true := by
  have hle := v.le_toInt
  simp_all [fitsInt4, v.toInt_le]

theorem Metadata.fills_of_fill {m : Metadata} {b : Binding} {p : Parameter}
    (h : m.fill id version document b = .ok p) : b.Fills p := by
  obtain ⟨key, source⟩ := b
  cases source with
  | correlationId =>
    cases h
    exact ⟨rfl, nofun⟩
  | version =>
    cases h
    refine ⟨rfl, fun fault hfault => ?_⟩
    cases version with
    | none => cases hfault
    | some v => simp [Postgres.argument, Postgres.fitsInt4_toInt64] at hfault
  | field path =>
    simp only [fill] at h
    cases hv : m.fieldValue document path with
    | error fault => rw [hv] at h; cases h
    | ok value =>
      rw [hv] at h
      cases h
      refine ⟨rfl, fun fault hfault => ⟨rfl, ?_⟩⟩
      simp only [fieldValue] at hv
      split at hv
      · cases hv
        cases hfault
      · rename_i json type _ ht
        rw [ht] at hfault ⊢
        exact Postgres.argument_ofJson_eq_error hv hfault
      · rename_i json _ ht
        rw [ht] at hfault
        cases hv
        exact absurd hfault (Postgres.argument_of_untyped _ _)

theorem Schema.command_inOrder (hp : s.dialect.parameters = .positional)
    {sources : List (String × BindingSource)} (hb : statement.bindings = s.bind sources)
    (hc : s.metadata.command statement id version document = .ok c) :
    c.InOrder ∧ List.Forall₂ Binding.Fills statement.bindings c.parameters := by
  have hfills : List.Forall₂ Binding.Fills statement.bindings c.parameters :=
    (mapM_eq_ok_iff.mp (Metadata.command_eq_ok hc).2).imp fun _ _ => Metadata.fills_of_fill
  have hkeys : c.parameters.map (·.key) = statement.bindings.map (·.key) :=
    map_eq_map_of_forall₂ (hfills.flip.imp fun _ _ hfill => hfill.key)
  have hlength : c.parameters.length = sources.length := by
    rw [← hfills.length_eq, hb, Schema.bind, List.length_map, List.length_zipIdx]
  refine ⟨?_, hfills⟩
  rw [Command.InOrder, hkeys, hb, s.bind_keys_of_positional hp, hlength]

/-! ## Queries -/

theorem Schema.selection_inOrder (hp : s.dialect.parameters = .positional)
    (predicates : List Predicate) : (s.selection predicates).InOrder := by
  have hlength : (s.selection predicates).parameters.length = predicates.length := by
    simp [selection]
  calc (s.selection predicates).parameters.map (·.key)
      = ((List.range' 0 predicates.length).map (1 + ·)).map .positional := by
        rw [s.selection_keys, hp, List.map_map]
        exact List.map_congr_left fun place _ => by simp [ParameterStyle.key, Nat.add_comm]
    _ = (List.range' 1 (s.selection predicates).parameters.length).map .positional := by
        rw [List.map_add_range', hlength]

/-! ## All commands -/

/-- Every command of a positional schema can be bound in the order in which it lists its parameters.
What a statement takes from an instance is only refused for an integer of a field that is out of
range, never for the key or the version; a query is also refused for a text that is no
identifier. -/
theorem commands_bind_in_order (hp : s.dialect.parameters = .positional) :
    (∀ statement ∈ [s.formatter.load, s.formatter.insert, s.formatter.update, s.formatter.delete],
      ∀ id version document c, s.metadata.command statement id version document = .ok c →
        Postgres.Binds c Postgres.OutOfRange ∧
          List.Forall₂ Binding.Fills statement.bindings c.parameters) ∧
    ∀ filter c, s.formatter.query filter = .ok c →
      Postgres.Binds c fun p fault =>
        Postgres.OutOfRange p fault ∨ Postgres.NoIdentifier p fault := by
  constructor
  · intro statement hs id version document c hc
    obtain ⟨sources, hb⟩ : ∃ sources, statement.bindings = s.bind sources := by
      simp only [List.mem_cons, List.not_mem_nil, or_false] at hs
      rcases hs with rfl | rfl | rfl | rfl
      · exact ⟨_, s.loadStatement_bindings⟩
      · exact ⟨_, s.insertStatement_bindings⟩
      · exact ⟨_, s.updateStatement_bindings⟩
      · exact ⟨_, s.deleteStatement_bindings⟩
    obtain ⟨horder, hfills⟩ := s.command_inOrder hp hb hc
    refine ⟨.of_inOrder horder fun p hmem fault hfault => ?_, hfills⟩
    obtain ⟨b, hfill⟩ := exists_related_of_mem hfills hmem
    exact (hfill.refused fault hfault).2
  · intro filter c hc
    change (s.metadata.predicates filter).map s.selection = .ok c at hc
    cases hpredicates : s.metadata.predicates filter with
    | error fault => rw [hpredicates] at hc; cases hc
    | ok predicates =>
      rw [hpredicates] at hc
      cases hc
      exact .of_inOrder (s.selection_inOrder hp predicates) fun p _ fault =>
        Postgres.argument_eq_error

end

namespace Samples.Order

def unnamed : Json :=
  .object [("CorrelationId", .string firstKey.text), ("Version", .int 6), ("Name", .null)]

def farVersion : Filter :=
  .and (.compare "Name" .eq (.string "tea")) (.compare "Version" .eq (.int 4294967296))

/-- An update of an order has its parameters at `$1` to `$4`. A query for a version beyond 32 bits
is refused for that value. -/
theorem binding_of_orders :
    schema.dialect.parameters = .positional ∧
      (∃ c, schema.metadata.command schema.formatter.update firstKey (some 6) (some unnamed) =
          .ok c ∧
        c.parameters.map (·.key.placeholder) = ["$1", "$2", "$3", "$4"] ∧
        Postgres.Binds c Postgres.OutOfRange ∧
          List.Forall₂ Binding.Fills schema.formatter.update.bindings c.parameters) ∧
      ∃ c, schema.formatter.query farVersion = .ok c ∧
        Postgres.bindArguments c.parameters = .error (.driver (.integerRange 4294967296)) ∧
        Postgres.Binds c fun p fault =>
          Postgres.OutOfRange p fault ∨ Postgres.NoIdentifier p fault := by
  obtain ⟨hstatements, hqueries⟩ :=
    commands_bind_in_order (show schema.dialect.parameters = .positional from rfl)
  have hupdate :=
    hstatements schema.formatter.update (by simp) firstKey (some 6) (some unnamed) _ rfl
  have hquery := hqueries farVersion _ rfl
  refine ⟨rfl, ⟨_, rfl, by decide +kernel, hupdate⟩, _, rfl, ?_, hquery⟩
  rw [Postgres.bindArguments_of_inOrder hquery.order]
  rfl

end Samples.Order

end Sagas
