import Sagas.Proofs.CallOutcomes
import Sagas.Proofs.FilterMeaning

/-! Values never reach the text of a command: what differs only in values is sent as the same text
with the same parameters. -/
namespace Sagas

/-! ## Outlines -/

/-- What is left of a parameter without its value. -/
def Parameter.outline (p : Parameter) : ParameterKey × Option FieldType :=
  (p.key, p.type)

def Predicate.outline (p : Predicate) : String × Comparison × Option FieldType :=
  (p.column, p.comparison, p.type)

/-- Commands that are the same up to the values of their parameters. -/
structure Command.SameOutline (c c' : Command) : Prop where
  sql : c.sql = c'.sql
  parameters : c.parameters.map (·.outline) = c'.parameters.map (·.outline)

/-- Results that are related, or errors that are equal. -/
inductive SameResult {ε α : Type} (R : α → α → Prop) : Except ε α → Except ε α → Prop
  | ok {a a' : α} : R a a' → SameResult R (.ok a) (.ok a')
  | error (e : ε) : SameResult R (.error e) (.error e)

theorem SameResult.map {ε α β : Type} {R : α → α → Prop} {Q : β → β → Prop} {f : α → β}
    {r r' : Except ε α} (h : SameResult R r r') (hf : ∀ a a', R a a' → Q (f a) (f a')) :
    SameResult Q (r.map f) (r'.map f) := by
  cases h with
  | ok ha => exact .ok (hf _ _ ha)
  | error e => exact .error e

theorem SameResult.bind {ε α β : Type} {R : α → α → Prop} {Q : β → β → Prop} {r r' : Except ε α}
    {f f' : α → Except ε β} (h : SameResult R r r')
    (hf : ∀ a a', R a a' → SameResult Q (f a) (f' a')) : SameResult Q (r >>= f) (r' >>= f') := by
  cases h with
  | ok ha => exact hf _ _ ha
  | error e => exact .error e

/-! ## Filters -/

/-- Filters of one shape: they differ at most in the values that fields are compared with and in the
arguments of calls. -/
inductive Filter.SameShape : Filter → Filter → Prop
  | all : SameShape .all .all
  | and {left left' right right' : Filter} : SameShape left left' → SameShape right right' →
      SameShape (.and left right) (.and left' right')
  | or {left left' right right' : Filter} : SameShape left left' → SameShape right right' →
      SameShape (.or left right) (.or left' right')
  | not {inner inner' : Filter} : SameShape inner inner' → SameShape (.not inner) (.not inner')
  | compare (field : String) (comparison : Comparison) (value value' : Value) :
      SameShape (.compare field comparison value) (.compare field comparison value')
  | field (path : String) : SameShape (.field path) (.field path)
  | call (method field : String) (arguments arguments' : List Value) :
      SameShape (.call method field arguments) (.call method field arguments')

theorem Filter.SameShape.predicates {filter filter' : Filter} (h : filter.SameShape filter')
    (m : Metadata) :
    SameResult (fun ps ps' => ps.map (·.outline) = ps'.map (·.outline)) (m.predicates filter)
      (m.predicates filter') := by
  induction h with
  | all => exact .ok rfl
  | and _ _ ihl ihr =>
    refine ihl.bind fun first first' hl => ihr.bind fun second second' hr => .ok ?_
    rw [List.map_append, List.map_append, hl, hr]
  | or => exact .error _
  | not hinner =>
    cases hinner with
    | field path =>
      simp only [Metadata.predicates]
      split
      · exact .ok rfl
      · exact .error _
    | _ => exact .error _
  | compare => exact .ok rfl
  | field path =>
    simp only [Metadata.predicates]
    split
    · exact .ok rfl
    · exact .error _
  | call => exact .error _

/-- The clause of a predicate, from its outline and the key of its parameter. -/
def Schema.clauseOf (s : Schema) (outline : String × Comparison × Option FieldType)
    (key : ParameterKey) : String :=
  s.dialect.quote outline.1 ++ " " ++ outline.2.1.sql ++ " " ++ key.placeholder

theorem Schema.selection_sameOutline (s : Schema) {predicates predicates' : List Predicate}
    (h : predicates.map (·.outline) = predicates'.map (·.outline)) :
    (s.selection predicates).SameOutline (s.selection predicates') := by
  have hlength : predicates.length = predicates'.length := by
    simpa using congrArg List.length h
  have hkeys : (s.selection predicates).parameters.map (·.key) =
      (s.selection predicates').parameters.map (·.key) := by
    rw [s.selection_keys, s.selection_keys, hlength]
  have hclauses : ∀ ps : List Predicate,
      List.zipWith (fun (p : Predicate) (q : Parameter) => s.dialect.quote p.column ++ " " ++
          p.comparison.sql ++ " " ++ q.key.placeholder) ps (s.selection ps).parameters =
        List.zipWith s.clauseOf (ps.map (·.outline)) ((s.selection ps).parameters.map (·.key)) := by
    intro ps
    rw [List.zipWith_map]
    rfl
  have hempty : predicates = [] ↔ predicates' = [] := by
    rw [← List.length_eq_zero_iff, hlength, List.length_eq_zero_iff]
  constructor
  · rw [(s.selection_selectsBy predicates).text, (s.selection_selectsBy predicates').text,
      hclauses, hclauses, h, hkeys]
    simp only [hempty]
  · have htypes : ∀ ps : List Predicate, (s.selection ps).parameters.map (·.type) =
        (ps.map (·.outline)).map fun o => o.2.2 := by
      intro ps
      have hvalues := congrArg (List.map Prod.snd) (s.selection_selectsBy ps).values
      simpa [Function.comp_def, Predicate.outline] using hvalues
    have houtline : ∀ c : Command, c.parameters.map (·.outline) =
        (c.parameters.map (·.key)).zip (c.parameters.map (·.type)) := by
      intro c
      rw [List.zip_map']
      rfl
    rw [houtline, houtline, hkeys, htypes, htypes, h]

/-! ## Instances -/

/-- The type of the parameter that carries a value. -/
def Metadata.sourceType? (m : Metadata) : BindingSource → Option FieldType
  | .correlationId => some .uuid
  | .version => some .int
  | .field path => m.fieldType? path

theorem Metadata.fill_outline {m : Metadata} {id : Uuid} {version : Option Int32}
    {document : Option Json} {b : Binding} {p : Parameter}
    (h : m.fill id version document b = .ok p) : p.outline = (b.key, m.sourceType? b.source) := by
  obtain ⟨key, source⟩ := b
  cases source with
  | correlationId => cases h; rfl
  | version => cases h; rfl
  | field path =>
    simp only [fill] at h
    cases hv : m.fieldValue document path with
    | error fault => rw [hv] at h; cases h
    | ok value => rw [hv] at h; cases h; rfl

theorem Metadata.command_outline {m : Metadata} {statement : Statement} {id : Uuid}
    {version : Option Int32} {document : Option Json} {c : Command}
    (h : m.command statement id version document = .ok c) :
    c.sql = statement.sql ∧ c.parameters.map (·.outline) =
      statement.bindings.map fun b => (b.key, m.sourceType? b.source) := by
  obtain ⟨hsql, hparameters⟩ := command_eq_ok h
  refine ⟨hsql, ?_⟩
  have hfill := (mapM_eq_ok_iff.mp hparameters).imp fun _ _ => Metadata.fill_outline
  exact map_eq_map_of_forall₂ hfill.flip

theorem Metadata.command_sameOutline {m : Metadata} {statement : Statement} {id id' : Uuid}
    {version version' : Option Int32} {document document' : Option Json} {c c' : Command}
    (h : m.command statement id version document = .ok c)
    (h' : m.command statement id' version' document' = .ok c') : c.SameOutline c' where
  sql := (command_outline h).1.trans (command_outline h').1.symm
  parameters := (command_outline h).2.trans (command_outline h').2.symm

/-! ## Calls -/

/-- The command that the database is called with, if the call has one. -/
def DriverCall.command? : DriverCall → Option Command
  | .fetch c _ | .execute c _ => some c
  | _ => none

/-- The commands that a program sends from a state. -/
def Observed.sent {σ α : Type} (program : StateM (Observed σ) α) (w : Observed σ) : List Command :=
  ((program w).2.calls.drop w.calls.length).filterMap DriverCall.command?

theorem Observed.sent_of_calls {σ α : Type} {program : StateM (Observed σ) α} {w : Observed σ}
    {calls : List DriverCall} (h : (program w).2.calls = w.calls ++ calls) :
    sent program w = calls.filterMap DriverCall.command? := by
  rw [sent, h, List.drop_left]

section
variable {S σ : Type} [Saga S]

namespace Context

theorem WriteCourse.writeCommand_of_mem {t : Transaction σ} {f : Formatter}
    {operation : WriteOperation} {x x' : S} {world : σ} {calls : List DriverCall}
    {result : Except StorageError Unit} {c : Command}
    (h : WriteCourse t f operation x world calls result x')
    (hc : c ∈ calls.filterMap DriverCall.command?) :
    writeCommand f.metadata (f.statement operation) (sentVersion f.metadata x)
      (sentInstance f.metadata x) = .ok c := by
  cases h with
  | refused => cases hc
  | unbound => cases hc
  | sent _ hcommand _ => rwa [List.mem_singleton.mp hc]

/-- A write only sends the command of its statement. -/
theorem command_of_mem_sent_perform {t : Transaction σ} {f : Formatter}
    {operation : WriteOperation} {x : S} {w : Observed σ} {c : Command}
    (h : c ∈ Observed.sent ((ofFormatter t.observed f).perform operation x) w) :
    ∃ id version document,
      f.metadata.command (f.statement operation) id version document = .ok c := by
  obtain ⟨calls, hcalls, hcourse⟩ := perform_course t f operation x w
  rw [Observed.sent_of_calls hcalls] at h
  have hcommand := hcourse.writeCommand_of_mem h
  rw [writeCommand] at hcommand
  cases hd : Saga.encode? (sentInstance f.metadata x) with
  | none => rw [hd] at hcommand; cases hcommand
  | some document => rw [hd] at hcommand; exact ⟨_, _, _, hcommand⟩

theorem command_of_mem_sent_load {t : Transaction σ} {f : Formatter} {id : Uuid} {w : Observed σ}
    {c : Command} (h : c ∈ Observed.sent ((ofFormatter (S := S) t.observed f).load id) w) :
    f.metadata.command f.load id none none = .ok c := by
  obtain ⟨_, hcalls, c', _, hc, rfl, _⟩ := load_report (S := S) t f id w
  rw [Observed.sent_of_calls hcalls] at h
  obtain rfl := List.mem_singleton.mp h
  exact hc

theorem query_of_mem_sent_query {t : Transaction σ} {f : Formatter} {filter : Filter}
    {w : Observed σ} {c : Command}
    (h : c ∈ Observed.sent ((ofFormatter (S := S) t.observed f).query filter) w) :
    f.query filter = .ok c := by
  obtain ⟨calls, hcalls, hreport⟩ := query_report (S := S) t f filter w
  rw [Observed.sent_of_calls hcalls] at h
  cases hc : f.query filter with
  | error fault =>
    rw [hreport.silent.mpr ⟨fault, hc⟩] at h
    cases h
  | ok c' =>
    rw [(hreport.fetched c' hc).1] at h
    rw [List.mem_singleton.mp h]

end Context

end

/-! ## Two runs -/

/-- Values never show in what is sent, except as the values of parameters. Filters of one shape are
refused with one error or become commands of one outline; and whatever the instances, the answers
of the database and the state it is in, two writes of one kind, two loads, or two queries for
filters of one shape send commands of one outline. -/
theorem values_stay_out_of_texts {S σ σ' : Type} [Saga S] (s : Schema) (f : Formatter)
    (t : Transaction σ) (t' : Transaction σ') (w : Observed σ) (w' : Observed σ') :
    (∀ filter filter', filter.SameShape filter' →
      SameResult Command.SameOutline (s.formatter.query filter) (s.formatter.query filter') ∧
      ∀ c ∈ Observed.sent ((Context.ofFormatter (S := S) t.observed s.formatter).query filter) w,
      ∀ c' ∈
        Observed.sent ((Context.ofFormatter (S := S) t'.observed s.formatter).query filter') w',
        c.SameOutline c') ∧
    (∀ operation (x x' : S),
      ∀ c ∈ Observed.sent ((Context.ofFormatter t.observed f).perform operation x) w,
      ∀ c' ∈ Observed.sent ((Context.ofFormatter t'.observed f).perform operation x') w',
        c.SameOutline c') ∧
    ∀ id id', ∀ c ∈ Observed.sent ((Context.ofFormatter (S := S) t.observed f).load id) w,
      ∀ c' ∈ Observed.sent ((Context.ofFormatter (S := S) t'.observed f).load id') w',
        c.SameOutline c' := by
  refine ⟨fun filter filter' h => ?_, fun operation x x' c hc c' hc' => ?_,
    fun id id' c hc c' hc' => ?_⟩
  · have hqueries : SameResult Command.SameOutline (s.formatter.query filter)
        (s.formatter.query filter') :=
      (h.predicates s.metadata).map fun _ _ => s.selection_sameOutline
    refine ⟨hqueries, fun c hc c' hc' => ?_⟩
    rw [Context.query_of_mem_sent_query hc, Context.query_of_mem_sent_query hc'] at hqueries
    cases hqueries with
    | ok hcc => exact hcc
  · obtain ⟨id, version, document, hcommand⟩ := Context.command_of_mem_sent_perform hc
    obtain ⟨id', version', document', hcommand'⟩ := Context.command_of_mem_sent_perform hc'
    exact Metadata.command_sameOutline hcommand hcommand'
  · exact Metadata.command_sameOutline (Context.command_of_mem_sent_load hc)
      (Context.command_of_mem_sent_load hc')

namespace Samples.Order

/-- The orders of a name. -/
def called (name : String) : Filter :=
  .and (.compare "Name" .eq (.string name)) .all

theorem called_sameShape (name name' : String) : (called name).SameShape (called name') :=
  .and (.compare _ _ _ _) .all

/-- A name that looks like SQL is only ever a value, in a query as in an update; nor does it matter
that one update finds no row and the other one fails. -/
theorem name_stays_out_of_texts :
    (called "tea").SameShape (called "' OR 1 = 1 --") ∧
    (∃ c c', schema.formatter.query (called "tea") = .ok c ∧
      schema.formatter.query (called "' OR 1 = 1 --") = .ok c' ∧ c.SameOutline c') ∧
    let context : Context Order (Observed Rehearsal.Script) :=
      .ofFormatter Rehearsal.Script.transaction.observed schema.formatter
    ∃ c c', c ∈ Observed.sent (context.perform .update ⟨firstKey, 5, some "tea", none⟩)
        ⟨{ affected := 0 }, []⟩ ∧
      c' ∈ Observed.sent (context.perform .update ⟨.nil, 7, some "' OR 1 = 1 --", none⟩)
        ⟨{ failure := some "cut off" }, []⟩ ∧ c.SameOutline c' := by
  obtain ⟨hqueries, hwrites, _⟩ := values_stay_out_of_texts (S := Order) schema schema.formatter
    Rehearsal.Script.transaction Rehearsal.Script.transaction ⟨{ affected := 0 }, []⟩
    ⟨{ failure := some "cut off" }, []⟩
  have hshape := called_sameShape "tea" "' OR 1 = 1 --"
  refine ⟨hshape, ?_, ?_⟩
  · have hresults := (hqueries _ _ hshape).1
    cases hresults with
    | ok hcc => exact ⟨_, _, rfl, rfl, hcc⟩
  · exact ⟨_, _, List.mem_singleton_self _, List.mem_singleton_self _,
      hwrites .update ⟨firstKey, 5, some "tea", none⟩ ⟨.nil, 7, some "' OR 1 = 1 --", none⟩
        _ (List.mem_singleton_self _) _ (List.mem_singleton_self _)⟩

end Samples.Order

end Sagas
