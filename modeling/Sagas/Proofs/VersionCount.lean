import Sagas.Proofs.CallOutcomes

/-! The version of an instance counts the writes that went through, over runs of any length and
whatever the database answers. -/
namespace Sagas

variable {S σ : Type} [Saga S]

/-! ## Runs -/

/-- The version of an instance as an integer; a missing one counts as zero. -/
def versionNumber (s : S) : Int :=
  ((Saga.version? s).getD 0).toInt

/-- A write that was made: the instance before and after it, and the calls that it made. -/
structure Written (S : Type) where
  operation : WriteOperation
  before : S
  calls : List DriverCall
  result : Except StorageError Unit
  after : S

/-- How many writes went through. -/
def successes (history : List (Written S)) : Nat :=
  history.countP (·.result.isOk)

/-- Writes of one instance in any order, the last one first. In between the world goes its own way,
and the instance may change in everything but its version. -/
inductive WriteRun (t : Transaction σ) (f : Formatter) (start : S) :
    List (Written S) → S → Observed σ → Prop
  | start (w : Observed σ) : WriteRun t f start [] start w
  | meanwhile {history : List (Written S)} {s : S} {w : Observed σ} (world : σ) :
      WriteRun t f start history s w → WriteRun t f start history s { w with world }
  | edit {history : List (Written S)} {s s' : S} {w : Observed σ} :
      WriteRun t f start history s w → Saga.version? s' = Saga.version? s →
        WriteRun t f start history s' w
  | write {history : List (Written S)} {s s' : S} {w w' : Observed σ} {calls : List DriverCall}
      {operation : WriteOperation} {result : Except StorageError Unit} :
      WriteRun t f start history s w →
        (Context.ofFormatter t.observed f).perform operation s w = ((result, s'), w') →
        w'.calls = w.calls ++ calls →
          WriteRun t f start (⟨operation, s, calls, result, s'⟩ :: history) s' w'

/-! ## One write -/

/-- A command that is given a version wherever its statement asks for one. -/
structure BindsVersion (f : Formatter) (operation : WriteOperation) (version : Int32)
    (c : Command) : Prop where
  plan : List.Forall₂
    (fun (b : Binding) (p : Parameter) =>
      p.key = b.key ∧ (b.source = .version → p.value = .int version.toInt64))
    (f.statement operation).bindings c.parameters
  generated : ∀ s : Schema, f = s.formatter → c.bound? s.versionKey = some (.int version.toInt64)

/-- A write that was made at a running version. It takes the version one further if it went through
and leaves it if not, and what it sent was given the version after the running one. From the
greatest version nothing is sent. -/
structure Written.Counts (f : Formatter) (running : Int) (turn : Written S) : Prop where
  before : versionNumber turn.before = running
  after : versionNumber turn.after = running + if turn.result.isOk then 1 else 0
  binds : ∀ call ∈ turn.calls, ∃ c answer version, call = .execute c answer ∧
    version.toInt = running + 1 ∧ BindsVersion f turn.operation version c
  greatest : running = Int32.maxValue.toInt → turn.calls = [] ∧ turn.after = turn.before ∧
    turn.result = .error (.versionOverflow f.metadata.sagaType (Saga.correlationId turn.before)
      Int32.maxValue)

theorem Metadata.fill_eq_ok {m : Metadata} {id : Uuid} {version : Int32} {document : Option Json}
    {b : Binding} {p : Parameter} (h : m.fill id (some version) document b = .ok p) :
    p.key = b.key ∧ (b.source = .version → p.value = .int version.toInt64) := by
  obtain ⟨key, source⟩ := b
  cases source with
  | correlationId => cases h; exact ⟨rfl, nofun⟩
  | version => cases h; exact ⟨rfl, fun _ => rfl⟩
  | field path =>
    simp only [fill] at h
    cases hv : m.fieldValue document path with
    | error fault => rw [hv] at h; cases h
    | ok value => rw [hv] at h; cases h; exact ⟨rfl, nofun⟩

namespace Context

theorem bindsVersion_of_writeCommand {f : Formatter} (hf : f.metadata.isVersioned = true)
    {operation : WriteOperation} {version : Int32} {x : S} {c : Command}
    (h : writeCommand f.metadata (f.statement operation) (some version) x = .ok c) :
    BindsVersion f operation version c where
  plan := by
    rw [writeCommand] at h
    cases hd : Saga.encode? x with
    | none => rw [hd] at h; cases h
    | some document =>
      rw [hd] at h
      exact (mapM_eq_ok_iff.mp (Metadata.command_eq_ok h).2).imp fun _ _ => Metadata.fill_eq_ok
  generated := by
    rintro s rfl
    exact (runs_of_writeCommand hf h).version

variable {t : Transaction σ} {f : Formatter} {operation : WriteOperation} {s s' : S} {world : σ}
variable {calls : List DriverCall} {result : Except StorageError Unit}

theorem versionNumber_setVersion (hset : ∀ v (x : S), Saga.version? (Saga.setVersion v x) = some v)
    (v : Int32) (x : S) : versionNumber (Saga.setVersion v x) = v.toInt := by
  rw [versionNumber, hset]
  rfl

/-- An instance that a guarded write returns is one version further exactly if it went through. -/
theorem versionNumber_returnedInstance (hf : f.metadata.isVersioned = true)
    (hset : ∀ v (x : S), Saga.version? (Saga.setVersion v x) = some v)
    (he : ¬ Exhausted f.metadata s) (result : Except StorageError Unit) :
    versionNumber (returnedInstance f.metadata s result) =
      versionNumber s + if result.isOk then 1 else 0 := by
  have hn : (Saga.version? s).getD 0 ≠ Int32.maxValue := fun h => he ⟨hf, h⟩
  simp only [returnedInstance, sentInstance, hf, if_true]
  cases result with
  | error e =>
    rw [settled, versionNumber_setVersion hset]
    simp [versionNumber, Except.isOk, Except.toBool]
  | ok =>
    rw [settled, versionNumber_setVersion hset, toInt_next hn]
    rfl

theorem WriteCourse.counts (h : WriteCourse t f operation s world calls result s')
    (hf : f.metadata.isVersioned = true)
    (hset : ∀ v (x : S), Saga.version? (Saga.setVersion v x) = some v) :
    Written.Counts f (versionNumber s) ⟨operation, s, calls, result, s'⟩ := by
  -- Below the greatest version the running version is never that.
  have hne : ¬ Exhausted f.metadata s → versionNumber s ≠ Int32.maxValue.toInt :=
    fun he h => he ⟨hf, Int32.toInt.inj h⟩
  cases h with
  | refused he =>
    exact {
      before := rfl
      after := by simp [Except.isOk, Except.toBool]
      binds := nofun
      greatest := fun _ => ⟨rfl, rfl, rfl⟩ }
  | unbound he hc =>
    exact {
      before := rfl
      after := versionNumber_returnedInstance hf hset he _
      binds := nofun
      greatest := fun h => absurd h (hne he) }
  | @sent c _ he hc hr =>
    refine ⟨rfl, versionNumber_returnedInstance hf hset he _, ?_, fun h => absurd h (hne he)⟩
    intro call hcall
    obtain rfl := List.mem_singleton.mp hcall
    have hn : (Saga.version? s).getD 0 ≠ Int32.maxValue := fun h => he ⟨hf, h⟩
    have hversion : sentVersion f.metadata s = some ((Saga.version? s).getD 0 + 1) := by
      rw [sentVersion, if_pos hf]
    rw [hversion] at hc
    exact ⟨c, _, _, rfl, toInt_next hn, bindsVersion_of_writeCommand hf hc⟩

/-- A write that is not guarded never changes its instance. -/
theorem WriteCourse.after_eq (h : WriteCourse t f operation s world calls result s')
    (hf : f.metadata.isVersioned = false) : s' = s := by
  have hreturned : ∀ r, returnedInstance f.metadata s r = s := by
    intro r
    simp [returnedInstance, hf]
  cases h with
  | refused he => rfl
  | unbound he hc => exact hreturned _
  | sent he hc hr => exact hreturned _

end Context

/-! ## Whole runs -/

section
variable {t : Transaction σ} {f : Formatter} {start s : S} {w : Observed σ}
variable {history : List (Written S)}

omit [Saga S] in
theorem successes_cons (turn : Written S) (history : List (Written S)) :
    successes (turn :: history) = successes history + if turn.result.isOk then 1 else 0 :=
  List.countP_cons

theorem WriteRun.counts (h : WriteRun t f start history s w)
    (hf : f.metadata.isVersioned = true)
    (hset : ∀ v (x : S), Saga.version? (Saga.setVersion v x) = some v) :
    versionNumber s = versionNumber start + successes history ∧
      ∀ turn earlier, turn :: earlier <:+ history →
        turn.Counts f (versionNumber start + successes earlier) := by
  induction h with
  | start w =>
    refine ⟨by simp [successes], ?_⟩
    intro turn earlier hsuffix
    cases List.suffix_nil.mp hsuffix
  | meanwhile world _ ih => exact ih
  | edit _ hversion ih =>
    refine ⟨?_, ih.2⟩
    rw [versionNumber, hversion]
    exact ih.1
  | write _ hperform hcalls ih =>
    obtain ⟨hrunning, hearlier⟩ := ih
    have hcounts := (Context.WriteCourse.of_perform hperform hcalls).counts hf hset
    rw [hrunning] at hcounts
    constructor
    · rw [hcounts.after, successes_cons]
      split <;> omega
    · intro turn earlier hsuffix
      rcases List.suffix_cons_iff.mp hsuffix with heq | hsuffix
      · obtain ⟨rfl, rfl⟩ := List.cons.inj heq
        exact hcounts
      · exact hearlier turn earlier hsuffix

theorem WriteRun.keeps_instance (h : WriteRun t f start history s w)
    (hf : f.metadata.isVersioned = false) : ∀ turn ∈ history, turn.after = turn.before := by
  induction h with
  | start w => exact nofun
  | meanwhile world _ ih => exact ih
  | edit _ _ ih => exact ih
  | write _ hperform hcalls ih =>
    intro turn hturn
    rcases List.mem_cons.mp hturn with rfl | hturn
    · exact (Context.WriteCourse.of_perform hperform hcalls).after_eq hf
    · exact ih turn hturn

/-- However writes of one instance follow on each other and whatever comes of them, the version has
moved on by one for each that went through, every command was given the version after the running
one, and from the greatest version nothing was sent. Where writes are not guarded, none of them
changed the instance. -/
theorem version_counts_writes (h : WriteRun t f start history s w) :
    (f.metadata.isVersioned = true →
      (∀ v (x : S), Saga.version? (Saga.setVersion v x) = some v) →
        versionNumber s = versionNumber start + successes history ∧
          ∀ turn earlier, turn :: earlier <:+ history →
            turn.Counts f (versionNumber start + successes earlier)) ∧
    (f.metadata.isVersioned = false → ∀ turn ∈ history, turn.after = turn.before) :=
  ⟨h.counts, h.keeps_instance⟩

end

/-! ## Orders -/

namespace Samples.Order

/-- An order one version before the greatest. -/
def late : Order :=
  ⟨firstKey, 2147483646, none, none⟩

/-- An order after its last update. -/
def greatest : Order :=
  { late with version := Int32.maxValue }

/-- An update finds no row, a second one goes through, and the deletion after it is refused. -/
theorem version_of_late_order :
    ∃ (history : List (Written Order)) (w : Observed Rehearsal.Script),
      WriteRun Rehearsal.Script.transaction schema.formatter late history greatest w ∧
      history.map (·.result.isOk) = [false, true, false] ∧
      versionNumber greatest = versionNumber late + successes history ∧
      ∀ turn earlier, turn :: earlier <:+ history →
        turn.Counts schema.formatter (versionNumber late + successes earlier) := by
  have hstart : WriteRun Rehearsal.Script.transaction schema.formatter late [] late
      ⟨{ affected := 0 }, []⟩ := .start _
  let context : Context Order (Observed Rehearsal.Script) :=
    .ofFormatter Rehearsal.Script.transaction.observed schema.formatter
  have hfailed := hstart.write (show context.perform .update late _ = _ from rfl) rfl
  have hupdated := (hfailed.meanwhile { affected := 1 }).write
    (show context.perform .update late _ = _ from rfl) rfl
  have h := hupdated.write (show context.perform .delete greatest _ = _ from rfl) rfl
  exact ⟨_, _, h, rfl, (version_counts_writes h).1 rfl fun _ _ => rfl⟩

end Samples.Order

end Sagas
