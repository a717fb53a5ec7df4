import Sagas.Proofs.VersionTable

/-! Clients that load, edit, update and delete one stored instance in any order: none of them undoes
an update that it has not seen. -/
namespace Sagas

/-! ## Races -/

inductive Call where
  | load
  | write (operation : WriteOperation)
deriving DecidableEq

/-- A call that a client made, and whether it succeeded: a load does if it returns an instance. -/
structure Turn (ι : Type) where
  client : ι
  call : Call
  succeeded : Bool

/-- Clients of one database, with the instance that each of them works on and the calls so far, the
last one first. -/
structure Race (ι S σ : Type) where
  table : σ
  inHand : ι → Option S
  history : List (Turn ι)

namespace Race

variable {ι S σ : Type} [DecidableEq ι]

/-- A client loads the instance of a key. It keeps the one it had if there is none to be had. -/
def load (context : Context S σ) (id : Uuid) (i : ι) (r : Race ι S σ) : Race ι S σ :=
  match context.load id r.table with
  | (.ok (some x), table) =>
    { table
      inHand := Function.update r.inHand i (some x)
      history := ⟨i, .load, true⟩ :: r.history }
  | (_, table) => { r with table, history := ⟨i, .load, false⟩ :: r.history }

/-- A client changes the instance in its hand. -/
def edit (i : ι) (x : S) (r : Race ι S σ) : Race ι S σ :=
  { r with inHand := Function.update r.inHand i (some x) }

/-- A client writes its instance and goes on with what the call leaves of it. -/
def write (context : Context S σ) (operation : WriteOperation) (i : ι) (x : S) (r : Race ι S σ) :
    Race ι S σ :=
  let ((result, x'), table) := context.perform operation x r.table
  { table
    inHand := Function.update r.inHand i (some x')
    history := ⟨i, .write operation, result.isOk⟩ :: r.history }

/-- The states of clients that take turns in any order, from empty hands on. What they hold was
loaded, and their edits leave its key and version alone. The key is not inserted again. -/
inductive Reachable [Saga S] (context : Context S σ) (id : Uuid) : Race ι S σ → Prop
  | start (table : σ) : Reachable context id ⟨table, fun _ => none, []⟩
  | load {r : Race ι S σ} (i : ι) :
      Reachable context id r → Reachable context id (r.load context id i)
  | edit {r : Race ι S σ} {i : ι} {x y : S} : Reachable context id r → r.inHand i = some x →
      Saga.correlationId y = Saga.correlationId x → Saga.version? y = Saga.version? x →
        Reachable context id (r.edit i y)
  | write {r : Race ι S σ} {i : ι} {x : S} {operation : WriteOperation} :
      Reachable context id r → r.inHand i = some x → operation ≠ .insert →
        Reachable context id (r.write context operation i x)

/-! ## Overtaking -/

/-- The calls since a client last loaded or wrote its instance with success. -/
def since (i : ι) (history : List (Turn ι)) : List (Turn ι) :=
  history.takeWhile fun turn => !(turn.client = i && turn.succeeded)

/-- Another client's update has succeeded since a client last loaded or wrote its instance. -/
def Overtaken (i : ι) (history : List (Turn ι)) : Prop :=
  ∃ turn ∈ since i history,
    turn.client ≠ i ∧ turn.call = .write .update ∧ turn.succeeded = true

variable {i : ι} {turn : Turn ι} {history : List (Turn ι)}

theorem overtaken_cons : Overtaken i (turn :: history) ↔
    ¬ (turn.client = i ∧ turn.succeeded = true) ∧
      ((turn.client ≠ i ∧ turn.call = .write .update ∧ turn.succeeded = true) ∨
        Overtaken i history) := by
  by_cases h : turn.client = i ∧ turn.succeeded = true
  · simp [Overtaken, since, h]
  · have hs : since i (turn :: history) = turn :: since i history := by
      rw [since, List.takeWhile_cons_of_pos (by simpa [or_iff_not_imp_left] using h)]
      rfl
    simp only [Overtaken, hs, List.mem_cons, exists_eq_or_imp, h, not_false_eq_true, true_and]

theorem not_overtaken_of_own (hc : turn.client = i) (hs : turn.succeeded = true) :
    ¬ Overtaken i (turn :: history) := fun h =>
  (overtaken_cons.mp h).1 ⟨hc, hs⟩

theorem overtaken_of_update (hc : turn.client ≠ i) (hu : turn.call = .write .update)
    (hs : turn.succeeded = true) : Overtaken i (turn :: history) :=
  overtaken_cons.mpr ⟨fun h => hc h.1, Or.inl ⟨hc, hu, hs⟩⟩

/-- A call that failed overtakes nobody. -/
theorem overtaken_cons_of_failed (hs : turn.succeeded = false) :
    Overtaken i (turn :: history) ↔ Overtaken i history := by
  simp [overtaken_cons, hs]

/-- A call of another client that is no update overtakes nobody. -/
theorem overtaken_cons_of_other (hc : turn.client ≠ i) (hu : turn.call ≠ .write .update) :
    Overtaken i (turn :: history) ↔ Overtaken i history := by
  simp [overtaken_cons, hc, hu]

/-! ## The invariant -/

variable [Saga S] {id : Uuid} {stored : σ → Option Int32} {r : Race ι S σ} {x : S}

/-- A version that is the stored one, or below it if the client that has it was overtaken. -/
def InStep (i : ι) (history : List (Turn ι)) (n : Int32) (stored : Option Int32) : Prop :=
  ∀ v, stored = some v → n ≤ v ∧ (n = v ↔ ¬ Overtaken i history)

/-- Every instance at hand has the key of the row and a version in step with it. -/
def Invariant (id : Uuid) (stored : σ → Option Int32) (r : Race ι S σ) : Prop :=
  ∀ i x, r.inHand i = some x →
    ∃ n, Carries id n x ∧ InStep i r.history n (stored r.table)

/-- A state in which one client has changed hands satisfies the invariant if that client's instance
does and the others are still in step. -/
theorem Invariant.update {table : σ} {y : S} {n : Int32} (h : Invariant id stored r)
    (hy : Carries id n y) (hown : InStep i history n (stored table))
    (hothers : ∀ j, j ≠ i → ∀ m, InStep j r.history m (stored r.table) →
      InStep j history m (stored table)) :
    Invariant id stored ⟨table, Function.update r.inHand i (some y), history⟩ := by
  intro j z hz
  change Function.update r.inHand i (some y) j = some z at hz
  by_cases hj : j = i
  · subst hj
    rw [Function.update_self] at hz
    cases hz
    exact ⟨n, hy, hown⟩
  · rw [Function.update_of_ne hj] at hz
    obtain ⟨m, hm, hstep⟩ := h j z hz
    exact ⟨m, hm, hothers j hj m hstep⟩

theorem inStep_cons_of_failed {n : Int32} {version : Option Int32}
    (hs : turn.succeeded = false) :
    InStep i (turn :: history) n version ↔ InStep i history n version := by
  simp only [InStep, overtaken_cons_of_failed hs]

theorem inStep_cons_of_other {n : Int32} {version : Option Int32} (hc : turn.client ≠ i)
    (hu : turn.call ≠ .write .update) :
    InStep i (turn :: history) n version ↔ InStep i history n version := by
  simp only [InStep, overtaken_cons_of_other hc hu]

theorem Invariant.edit {y : S} (h : Invariant id stored r) (hx : r.inHand i = some x)
    (hid : Saga.correlationId y = Saga.correlationId x)
    (hversion : Saga.version? y = Saga.version? x) : Invariant id stored (r.edit i y) := by
  obtain ⟨n, hc, hstep⟩ := h i x hx
  exact h.update ⟨hid.trans hc.id, hversion.trans hc.version⟩ hstep fun _ _ _ hm => hm

variable {s : Schema} {column : String} {t : Transaction σ} {operation : WriteOperation}

/-- A loaded instance has the stored version, and nobody has overtaken its client yet. -/
theorem Invariant.load (hg : GuardsRow S s column t id stored) (h : Invariant id stored r)
    (i : ι) : Invariant id stored (r.load (Context.ofFormatter t s.formatter) id i) := by
  obtain ⟨result, hl, hfound⟩ := hg.load_spec r.table
  have hkept : Invariant id stored
      { r with history := ⟨i, .load, false⟩ :: r.history } := fun j x hx => by
    obtain ⟨n, hc, hstep⟩ := h j x hx
    exact ⟨n, hc, (inStep_cons_of_failed rfl).mpr hstep⟩
  rw [Race.load, hl]
  match result with
  | .error _ => exact hkept
  | .ok none => exact hkept
  | .ok (some x) =>
    obtain ⟨v, hv, hc⟩ := hfound x rfl
    refine h.update hc ?_ fun j hj m hm => ?_
    · intro w hw
      cases hv.symm.trans hw
      exact ⟨Int32.le_refl v, iff_of_true rfl (not_overtaken_of_own rfl rfl)⟩
    · exact (inStep_cons_of_other (Ne.symm hj) (by simp)).mpr hm

/-- A write that goes through starts from the stored version. It takes its client to the new one,
and an update leaves all others behind. -/
theorem Invariant.write [LawfulSaga S] (hv : s.metadata.versionColumn = some column)
    (hg : GuardsRow S s column t id stored) (h : Invariant id stored r)
    (hx : r.inHand i = some x) (ho : operation ≠ .insert) :
    Invariant id stored (r.write (Context.ofFormatter t s.formatter) operation i x) := by
  obtain ⟨n, hc, hstep⟩ := h i x hx
  rw [Race.write]
  rcases hg.perform_cases hv ho hc r.table with ⟨table', w, hp, hn, hw, hle, hs⟩ | ⟨e, hp⟩
  · rw [hp]
    refine h.update (hc.advanced (n + 1)) ?_ fun j hj m hm => ?_
    · rw [hs]
      intro v hl
      cases (WriteOperation.leaves_eq_some.mp hl).1
      exact ⟨Int32.le_refl _, iff_of_true rfl (not_overtaken_of_own rfl rfl)⟩
    · rw [hs]
      intro v hl
      obtain ⟨rfl, hd⟩ := WriteOperation.leaves_eq_some.mp hl
      have hu : operation = .update := by
        cases operation with
        | insert => exact absurd rfl ho
        | update => rfl
        | delete => exact absurd rfl hd
      subst hu
      -- No instance was above the row before, so all others are below its new version.
      have hlt : m < n + 1 := (lt_next_iff hn).mpr (Int32.le_trans (hm w hw).1 hle)
      exact ⟨Int32.le_of_lt hlt, iff_of_false (Int32.ne_of_lt hlt)
        (not_not_intro (overtaken_of_update (Ne.symm hj) rfl rfl))⟩
  · rw [hp]
    refine h.update hc ?_ fun j _ m hm => ?_
    · exact (inStep_cons_of_failed rfl).mpr hstep
    · exact (inStep_cons_of_failed rfl).mpr hm

/-- Whatever turns the clients take, the invariant holds. -/
theorem Reachable.invariant [LawfulSaga S] (hv : s.metadata.versionColumn = some column)
    (hg : GuardsRow S s column t id stored)
    (hr : Reachable (Context.ofFormatter t s.formatter) id r) : Invariant id stored r := by
  induction hr with
  | start table => exact nofun
  | load i _ ih => exact ih.load hg i
  | edit _ hx hid hversion ih => exact ih.edit hx hid hversion
  | write _ hx ho ih => exact ih.write hv hg hx ho

/-! ## Outcomes -/

/-- No update is lost. However the clients take turns, an instance at hand never has a version above
that of its row. Below the greatest version, its update or deletion, once its values are bound, goes
through exactly if the row is there and nobody else's update went through since the client last
loaded or wrote the instance; otherwise it loses the race and leaves the table alone. -/
theorem write_succeeds_iff_not_overtaken [LawfulSaga S]
    (hv : s.metadata.versionColumn = some column) (hg : GuardsRow S s column t id stored)
    (hr : Reachable (Context.ofFormatter t s.formatter) id r) (hx : r.inHand i = some x) :
    ∃ n, Carries id n x ∧ (∀ v, stored r.table = some v → n ≤ v) ∧
      (n < Int32.maxValue → ∀ operation ≠ .insert,
        let command := Context.writeCommand s.metadata (s.formatter.statement operation)
          (some (n + 1)) (Saga.setVersion (n + 1) x)
        let written := (Context.ofFormatter t s.formatter).perform operation x r.table
        (∀ fault, command = .error fault →
          written = ((.error (.serialization fault), x), r.table)) ∧
        ∀ c, command = .ok c →
          (written.1.1 = .ok () ↔
            (stored r.table).isSome = true ∧ ¬ Overtaken i r.history) ∧
          (written.1.1 ≠ .ok () → written =
            ((.error (.concurrency operation s.metadata.sagaType id), x), r.table))) := by
  obtain ⟨n, hc, hstep⟩ := hr.invariant hv hg i x hx
  refine ⟨n, hc, fun v hs => (hstep v hs).1, fun hlt operation ho => ?_⟩
  have hn : n ≠ Int32.maxValue := Int32.ne_of_lt hlt
  intro command written
  refine ⟨fun fault hcommand => hc.perform_fault hv hn hcommand r.table, fun c hcommand => ?_⟩
  by_cases hw : ∃ w, stored r.table = some w ∧ w ≤ n
  · obtain ⟨w, hw, hle⟩ := hw
    obtain ⟨table', hp, _⟩ := hg.perform_current hv ho hc hn hcommand hw hle
    have hok : written.1.1 = .ok () := by rw [show written = _ from hp]
    -- The guard allows any version from that of the row on, the invariant none above it.
    have heq : n = w := Int32.le_antisymm (hstep w hw).1 hle
    refine ⟨iff_of_true hok ⟨by rw [hw]; rfl, (hstep w hw).2.mp heq⟩, fun h => absurd hok h⟩
  · have hp : written = ((.error (.concurrency operation s.metadata.sagaType id), x), r.table) :=
      hg.perform_stale hv ho hc hn hcommand fun w h hle => hw ⟨w, h, hle⟩
    have hne : written.1.1 ≠ .ok () := by rw [hp]; exact nofun
    refine ⟨iff_of_false hne fun ⟨hrow, hover⟩ => ?_, fun _ => hp⟩
    obtain ⟨v, hs⟩ := Option.isSome_iff_exists.mp hrow
    exact hw ⟨v, hs, Int32.le_of_eq ((hstep v hs).2.mpr hover).symm⟩

end Race

/-! ## Orders -/

namespace Samples.Order

/-- Orders in a table of versions. -/
def context : Context Order VersionTable :=
  Context.ofFormatter (schema.versionTable "Version") schema.formatter

/-- The fifth version of an order. -/
def fifth : Order :=
  ⟨firstKey, 5, none, none⟩

/-- Two clients have loaded an order at its fifth version. -/
def loadedTwice : Race Nat Order VersionTable :=
  (Race.load context firstKey 1 ⟨fun _ => some 5, fun _ => none, []⟩).load context firstKey 2

/-- Of two clients with the same version of an order, the one that updates it second loses. -/
theorem late_update_loses :
    let r := loadedTwice.write context .update 1 fifth
    r.inHand 1 = some { fifth with version := 6 } ∧ r.inHand 2 = some fifth ∧
      context.perform .update fifth r.table =
        ((.error (.concurrency .update "Order" firstKey), fifth), r.table) := by
  intro r
  have hloaded : Race.Reachable context firstKey loadedTwice := .load 2 (.load 1 (.start _))
  have hr : Race.Reachable context firstKey r :=
    hloaded.write rfl (show WriteOperation.update ≠ .insert by decide)
  have hx : r.inHand 2 = some fifth := rfl
  obtain ⟨n, hc, _, hw⟩ := Race.write_succeeds_iff_not_overtaken rfl versionTable_guardsRow hr hx
  have hn : 5 = n := Option.some.inj hc.version
  subst hn
  have hlost := (hw (by decide) .update (by decide)).2 _ rfl
  have hover : Race.Overtaken 2 r.history := Race.overtaken_of_update (by decide) rfl rfl
  exact ⟨rfl, hx, hlost.2 fun hok => (hlost.1.mp hok).2 hover⟩

end Samples.Order

end Sagas
