import Sagas.Proofs.DraftTable
import Sagas.Proofs.UnitOfWork

/-! Clients that keep an instance from one unit of work to the next. The version of an instance
that was written in an undone unit runs ahead of its row, and can later pass for one that was read
from there. -/
namespace Sagas

/-! ## Clients -/

/-- What a client did with success in a unit. -/
inductive Deed where
  | loaded
  | wrote
deriving DecidableEq

structure ClosedUnit (ι : Type) where
  client : ι
  /-- The deeds of the unit, the last one first. -/
  deeds : List Deed
  committed : Bool
deriving DecidableEq

/-- Clients of one database with the instance that each of them works on, the deeds of the unit that
is open and the units before it, the last one first. -/
structure Clientele (ι S σ : Type) where
  database : σ
  inHand : ι → Option S
  deeds : List Deed
  closed : List (ClosedUnit ι)

namespace Clientele

variable {ι S σ : Type}

def databaseLens : Lens σ (Clientele ι S σ) where
  get := database
  set database w := { w with database }
  get_set _ _ := rfl
  set_get _ := rfl

section
variable [DecidableEq ι] (context : Context S (Clientele ι S σ))

/-- The state in which a client goes on with an instance, after a deed if there was one. -/
def goOn (i : ι) (x : S) (deed : Option Deed) (w : Clientele ι S σ) : Clientele ι S σ :=
  { w with inHand := Function.update w.inHand i (some x), deeds := deed.toList ++ w.deeds }

/-- A client loads the instance of a key. It keeps the one it had if there is none to be had. -/
def load (id : Uuid) (i : ι) :
    StateM (Clientele ι S σ) (Except StorageError (Option S)) := fun w =>
  match context.load id w with
  | (.ok (some x), w) => (.ok (some x), w.goOn i x (some .loaded))
  | (result, w) => (result, w)

def edit (i : ι) (change : S → S) : StateM (Clientele ι S σ) Unit := fun w =>
  match w.inHand i with
  | none => ((), w)
  | some x => ((), w.goOn i (change x) none)

/-- A client writes the instance in its hand, if there is one, and goes on with what the call leaves
of it. -/
def write (operation : WriteOperation) (i : ι) :
    StateM (Clientele ι S σ) (Option (Except StorageError Unit)) := fun w =>
  match w.inHand i with
  | none => (none, w)
  | some x =>
    let ((result, x'), w) := context.perform operation x w
    (some result, w.goOn i x' (if result.isOk then some .wrote else none))

/-- What a client can program with a context: loads of its instance, edits that leave the key and
the version alone, updates and deletions, and anything that changes nothing. The key is not inserted
again. -/
inductive Program [Saga S] (id : Uuid) (i : ι) :
    {α : Type} → StateM (Clientele ι S σ) α → Prop
  | own {α : Type} {program : StateM (Clientele ι S σ) α} (h : ∀ w, (program w).2 = w) :
      Program id i program
  | load : Program id i (load context id i)
  | edit {change : S → S} (hid : ∀ x, Saga.correlationId (change x) = Saga.correlationId x)
      (hversion : ∀ x, Saga.version? (change x) = Saga.version? x) :
      Program id i (edit i change)
  | write {operation : WriteOperation} (ho : operation ≠ .insert) :
      Program id i (write context operation i)
  | bind {α β : Type} {first : StateM (Clientele ι S σ) α} {next : α → StateM (Clientele ι S σ) β}
      (hf : Program id i first) (hn : ∀ a, Program id i (next a)) : Program id i (first >>= next)

end

/-! ## Units -/

section
variable [Saga S] (connector : Connector σ) (f : Formatter)

def repository (isolation : IsolationLevel) : Repository S (Clientele ι S σ) :=
  .standard (connector.zoom databaseLens) f isolation

/-- The context that the work of the clients is handed. -/
def context : Context S (Clientele ι S σ) :=
  .ofFormatter (connector.transaction.zoom databaseLens) f

/-- The state in which a transaction that could be begun is open. -/
def opened (isolation : IsolationLevel) (w : Clientele ι S σ) : Clientele ι S σ :=
  { w with database := (connector.start isolation w.database).2 }

def close (i : ι) (committed : Bool) (w : Clientele ι S σ) : Clientele ι S σ :=
  { w with deeds := [], closed := ⟨i, w.deeds, committed⟩ :: w.closed }

def afterUnit {E R : Type} (isolation : IsolationLevel) (lift : StorageError → E) (i : ι)
    (work : Context S (Clientele ι S σ) → StateM (Clientele ι S σ) (Except E R))
    (w : Clientele ι S σ) : Clientele ι S σ :=
  let (result, w) := (repository connector f isolation).execute lift work w
  w.close i result.isOk

/-- The states that units of any clients lead to, from empty hands on. -/
inductive Reachable [DecidableEq ι] (id : Uuid) : Clientele ι S σ → Prop
  | start (database : σ) : Reachable id ⟨database, fun _ => none, [], []⟩
  | unit {w : Clientele ι S σ} {i : ι} {E R : Type} {isolation : IsolationLevel}
      {lift : StorageError → E}
      {work : Context S (Clientele ι S σ) → StateM (Clientele ι S σ) (Except E R)}
      (h : Reachable id w) (hw : Program (context connector f) id i (work (context connector f))) :
      Reachable id (w.afterUnit connector f isolation lift i work)

end

end Clientele

/-! ## What a client has not seen -/

section
variable {ι : Type}

namespace ClosedUnit

/-- A unit with a write that was committed. -/
def Changes (u : ClosedUnit ι) : Prop :=
  u.committed = true ∧ .wrote ∈ u.deeds

/-- A unit in which a client loaded its instance, or that committed a write of it. -/
def Settles (i : ι) (u : ClosedUnit ι) : Prop :=
  u.client = i ∧ (.loaded ∈ u.deeds ∨ u.Changes)

/-- A unit that wrote the instance as the client had it before. -/
def WritesUnread (u : ClosedUnit ι) : Prop :=
  u.deeds.getLast? = some .wrote

end ClosedUnit

/-- Another client has committed a write since a client last loaded its instance or committed a
write of it. -/
inductive Overtaken (i : ι) : List (ClosedUnit ι) → Prop
  | now {u : ClosedUnit ι} {closed : List (ClosedUnit ι)} :
      u.client ≠ i → u.Changes → Overtaken i (u :: closed)
  | before {u : ClosedUnit ι} {closed : List (ClosedUnit ι)} :
      ¬ u.Settles i → Overtaken i closed → Overtaken i (u :: closed)

/-- The last unit in which a client did anything wrote its instance and was undone. -/
inductive Adrift (i : ι) : List (ClosedUnit ι) → Prop
  | now {u : ClosedUnit ι} {closed : List (ClosedUnit ι)} :
      u.client = i → u.committed = false → .wrote ∈ u.deeds → Adrift i (u :: closed)
  | before {u : ClosedUnit ι} {closed : List (ClosedUnit ι)} :
      (u.client = i → u.deeds = []) → Adrift i closed → Adrift i (u :: closed)

variable {i : ι} {u : ClosedUnit ι} {closed : List (ClosedUnit ι)}

theorem overtaken_cons_of_settles (h : u.Settles i) : ¬ Overtaken i (u :: closed) := by
  intro ho
  cases ho with
  | now hc _ => exact hc h.1
  | before hs _ => exact hs h

/-- A unit that loads and writes nothing with success overtakes nobody. -/
theorem overtaken_cons_of_idle (h : u.deeds = []) :
    Overtaken i (u :: closed) ↔ Overtaken i closed := by
  constructor
  · intro ho
    cases ho with
    | now _ hu => simp [ClosedUnit.Changes, h] at hu
    | before _ ho => exact ho
  · refine .before fun hs => ?_
    simp [ClosedUnit.Settles, ClosedUnit.Changes, h] at hs

/-- Nor does one of another client that is undone or writes nothing. -/
theorem overtaken_cons_of_other (hc : u.client ≠ i) (hu : ¬ u.Changes) :
    Overtaken i (u :: closed) ↔ Overtaken i closed := by
  constructor
  · intro ho
    cases ho with
    | now _ h => exact absurd h hu
    | before _ ho => exact ho
  · exact .before fun hs => hc hs.1

theorem adrift_cons_of_idle (h : u.client = i → u.deeds = []) :
    Adrift i (u :: closed) ↔ Adrift i closed := by
  constructor
  · intro ha
    cases ha with
    | now hc _ hw => simp [h hc] at hw
    | before _ ha => exact ha
  · exact .before h

end

namespace Clientele

variable {ι S σ : Type} [Saga S]
variable {s : Schema} {column : String} {connector : Connector σ} {id : Uuid}
variable {committed stored : σ → Option Int32} {i : ι} {before w : Clientele ι S σ}

/-! ## Inside a unit -/

/-- Whatever a write comes to, it changes the database only, and not what is committed there. -/
theorem perform_frame
    (hg : CommitsRow S s column connector id committed stored) (operation : WriteOperation) (x : S)
    (w : Clientele ι S σ) : ∃ database,
      ((context connector s.formatter).perform operation x w).2 = { w with database } ∧
        committed database = committed w.database :=
  Context.perform_keeps
    (P := fun w' : Clientele ι S σ => ∃ database, w' = { w with database } ∧
      committed database = committed w.database)
    ⟨w.database, rfl, rfl⟩ (fun c => ⟨_, rfl, hg.execute_keeps c w.database⟩) _ _ _

/-- A client has an instance with the given version in its hand. -/
def Holds (id : Uuid) (i : ι) (w : Clientele ι S σ) (n : Int32) : Prop :=
  ∃ x, w.inHand i = some x ∧ Carries id n x

/-- What holds while a unit of a client is open that was begun in a state: until its first deed the
client has the version that it came with, and from then on that of the row. -/
structure During (id : Uuid) (committed stored : σ → Option Int32) (i : ι)
    (before w : Clientele ι S σ) : Prop where
  closed : w.closed = before.closed
  others : ∀ j, j ≠ i → w.inHand j = before.inHand j
  kept : committed w.database = committed before.database
  carries : ∀ x, w.inHand i = some x → ∃ n, Carries id n x ∧
    (w.deeds = [] → Holds id i before n) ∧
    (w.deeds ≠ [] → ∀ v, stored w.database = some v → v = n)
  unwritten : .wrote ∉ w.deeds → stored w.database = committed before.database
  written : .wrote ∈ w.deeds → ∀ v, stored w.database = some v →
    ∃ v₀, committed before.database = some v₀ ∧ v₀ < v
  unread : w.deeds.getLast? = some .wrote →
    ∃ n v, Holds id i before n ∧ committed before.database = some v ∧ v ≤ n

section
variable [DecidableEq ι]

omit [Saga S] in
theorem goOn_inHand (i : ι) (x : S) (deed : Option Deed) (w : Clientele ι S σ) :
    (goOn i x deed w).inHand i = some x :=
  Function.update_self i _ w.inHand

omit [Saga S] in
theorem write_of_held {context : Context S (Clientele ι S σ)} {operation : WriteOperation} {x : S}
    (hx : w.inHand i = some x) :
    write context operation i w =
      let written := context.perform operation x w
      (some written.1.1,
        written.2.goOn i written.1.2 (if written.1.1.isOk then some .wrote else none)) := by
  simp only [write, hx]
  rfl

namespace During

/-- A deed takes its client to the version of the row. If it is a write, the version that the client
had before was not below that of the row, and the new one is above it. -/
theorem deed {database : σ} {y : S} {n : Int32} {deed : Deed}
    (h : During id committed stored i before w) (hy : Carries id n y)
    (hkept : committed database = committed w.database)
    (hcurrent : ∀ v, stored database = some v → v = n)
    (hloaded : deed = .loaded → stored database = stored w.database)
    (hwrote : deed = .wrote → ∃ m v, Holds id i w m ∧ stored w.database = some v ∧ v ≤ m ∧ m < n) :
    During id committed stored i before (goOn i y (some deed) { w with database }) where
  closed := h.closed
  others j hj := (Function.update_of_ne hj _ _).trans (h.others j hj)
  kept := hkept.trans h.kept
  carries x hx := by
    rw [goOn_inHand] at hx
    cases hx
    exact ⟨n, hy, nofun, fun _ => hcurrent⟩
  unwritten hn := by
    cases deed with
    | loaded => exact (hloaded rfl).trans (h.unwritten fun hm => hn (List.mem_cons_of_mem _ hm))
    | wrote => exact absurd List.mem_cons_self hn
  written hm v hs := by
    cases deed with
    | loaded =>
      exact h.written ((List.mem_cons.mp hm).resolve_left nofun) v ((hloaded rfl).symm.trans hs)
    | wrote =>
      obtain ⟨m, v', _, hv', hle, hlt⟩ := hwrote rfl
      obtain rfl := hcurrent v hs
      have hlt' : v' < v := Int32.lt_of_le_of_lt hle hlt
      by_cases hw : Deed.wrote ∈ w.deeds
      · obtain ⟨v₀, hv₀, hlt₀⟩ := h.written hw v' hv'
        exact ⟨v₀, hv₀, Int32.lt_trans hlt₀ hlt'⟩
      · exact ⟨v', (h.unwritten hw).symm.trans hv', hlt'⟩
  unread hu := by
    -- Only the first deed of a unit can be an unread write; it was of the version from before.
    cases hd : w.deeds with
    | nil =>
      simp only [goOn, hd, Option.toList_some, List.append_nil, List.getLast?_singleton,
        Option.some.injEq] at hu
      subst hu
      obtain ⟨m, v, ⟨x, hx, hm⟩, hv, hle, _⟩ := hwrote rfl
      obtain ⟨n', hn', hheld, _⟩ := h.carries x hx
      cases hm.version.symm.trans hn'.version
      have hs := h.unwritten (by simp [hd])
      exact ⟨m, v, hheld hd, hs.symm.trans hv, hle⟩
    | cons first rest =>
      refine h.unread ?_
      rw [goOn, Option.toList_some, List.singleton_append, hd, List.getLast?_cons_cons] at hu
      rw [hd]
      exact hu

/-- Going on with an instance of the same version changes nothing. -/
theorem same {x y : S} (h : During id committed stored i before w) (hx : w.inHand i = some x)
    (hid : Saga.correlationId y = Saga.correlationId x)
    (hversion : Saga.version? y = Saga.version? x) :
    During id committed stored i before (goOn i y none w) where
  closed := h.closed
  others j hj := (Function.update_of_ne hj _ _).trans (h.others j hj)
  kept := h.kept
  carries z hz := by
    rw [goOn_inHand] at hz
    cases hz
    obtain ⟨n, hc, hstate⟩ := h.carries x hx
    exact ⟨n, ⟨hid.trans hc.id, hversion.trans hc.version⟩, hstate⟩
  unwritten := h.unwritten
  written := h.written
  unread := h.unread

theorem load (hg : CommitsRow S s column connector id committed stored)
    (h : During id committed stored i before w) :
    During id committed stored i before (load (context connector s.formatter) id i w).2 := by
  obtain ⟨result, hl, hfound⟩ := (hg.guards.zoom databaseLens).load_spec w
  have hl' : (context connector s.formatter).load id w = (result, w) := hl
  rw [Clientele.load, hl']
  match result with
  | .error _ => exact h
  | .ok none => exact h
  | .ok (some x) =>
    obtain ⟨v, hv, hc⟩ := hfound x rfl
    exact h.deed hc rfl (fun v' hv' => Option.some.inj (hv'.symm.trans hv)) (fun _ => rfl) nofun

theorem edit {change : S → S} (hid : ∀ x, Saga.correlationId (change x) = Saga.correlationId x)
    (hversion : ∀ x, Saga.version? (change x) = Saga.version? x)
    (h : During id committed stored i before w) :
    During id committed stored i before (edit i change w).2 := by
  rw [Clientele.edit]
  cases hx : w.inHand i with
  | none => exact h
  | some x => exact h.same hx (hid x) (hversion x)

theorem write [LawfulSaga S] (hv : s.metadata.versionColumn = some column)
    (hg : CommitsRow S s column connector id committed stored)
    {operation : WriteOperation} (ho : operation ≠ .insert)
    (h : During id committed stored i before w) :
    During id committed stored i before
      (write (context connector s.formatter) operation i w).2 := by
  cases hx : w.inHand i with
  | none =>
    rw [Clientele.write, hx]
    exact h
  | some x =>
    rw [write_of_held hx]
    obtain ⟨n, hc, -⟩ := h.carries x hx
    rcases (hg.guards.zoom databaseLens).perform_cases hv ho hc w with
      ⟨w', v, hp, hn, hs, hle, hleft⟩ | ⟨e, hp⟩
    · have hp' : (context connector s.formatter).perform operation x w =
          ((.ok (), Saga.setVersion (n + 1) x), w') := hp
      obtain ⟨database, hw', hkept⟩ := perform_frame hg operation x w
      rw [hp'] at hw' ⊢
      subst hw'
      refine h.deed (hc.advanced (n + 1)) hkept (fun v' hv' => ?_) nofun fun _ => ?_
      · exact (WriteOperation.leaves_eq_some.mp (hleft.symm.trans hv')).1.symm
      · exact ⟨n, v, ⟨x, hx, hc⟩, hs, hle, (lt_next_iff hn).mpr (Int32.le_refl n)⟩
    · have hp' : (context connector s.formatter).perform operation x w = ((.error e, x), w) := hp
      rw [hp']
      exact h.same hx rfl rfl

theorem program [LawfulSaga S] (hv : s.metadata.versionColumn = some column)
    (hg : CommitsRow S s column connector id committed stored) {α : Type}
    {program : StateM (Clientele ι S σ) α}
    (hp : Program (context connector s.formatter) id i program) {w : Clientele ι S σ}
    (h : During id committed stored i before w) :
    During id committed stored i before (program w).2 := by
  induction hp generalizing w with
  | own hsame =>
    rw [hsame]
    exact h
  | load => exact h.load hg
  | edit hid hversion => exact h.edit hid hversion
  | write ho => exact h.write hv hg ho
  | bind _ _ hf hn => exact hn _ (hf h)

end During

end

/-! ## From unit to unit -/

/-- A version that is the committed one, or below it if the client that has it was overtaken. -/
def InStep (i : ι) (closed : List (ClosedUnit ι)) (n : Int32) (committed : Option Int32) : Prop :=
  ∀ v, committed = some v → n ≤ v ∧ (n = v ↔ ¬ Overtaken i closed)

/-- Between units, every instance has the key of the row, and unless its client is adrift a version
in step with it. No unit has written unread over what its client had not seen, except adrift. -/
structure Invariant (id : Uuid) (committed : σ → Option Int32) (w : Clientele ι S σ) : Prop where
  idle : w.deeds = []
  inStep : ∀ i x, w.inHand i = some x → ∃ n, Carries id n x ∧
    (¬ Adrift i w.closed → InStep i w.closed n (committed w.database))
  unread : ∀ u earlier, u :: earlier <:+ w.closed → u.WritesUnread →
    Overtaken u.client earlier → Adrift u.client earlier

/-- How a unit that was begun in a state ends: its transaction is committed or not. -/
def Ends (committed stored : σ → Option Int32) (i : ι) (worked after : Clientele ι S σ) : Prop :=
  ∃ database ok, after = close i ok { worked with database } ∧
    committed database = if ok then stored worked.database else committed worked.database

theorem afterUnit_of_failed_start {isolation : IsolationLevel} {e : StorageError}
    (h : (connector.start isolation w.database).1 = .error e) {E R : Type}
    (lift : StorageError → E) (i : ι)
    (work : Context S (Clientele ι S σ) → StateM (Clientele ι S σ) (Except E R)) :
    w.afterUnit connector s.formatter isolation lift i work =
      close i false (w.opened connector isolation) := by
  have hr : (repository connector s.formatter isolation).execute lift work w =
      (.error (lift e), w.opened connector isolation) :=
    Repository.execute_standard_of_failed_start
      (show ((connector.zoom databaseLens).start isolation w).1 = .error e from h) lift work
  rw [afterUnit, hr]
  rfl

theorem afterUnit_ends (hg : CommitsRow S s column connector id committed stored)
    {isolation : IsolationLevel} (h : (connector.start isolation w.database).1 = .ok ())
    {E R : Type} (lift : StorageError → E) (i : ι)
    (work : Context S (Clientele ι S σ) → StateM (Clientele ι S σ) (Except E R)) :
    Ends committed stored i
      (work (context connector s.formatter) (w.opened connector isolation)).2
      (w.afterUnit connector s.formatter isolation lift i work) := by
  have hstart : ((connector.zoom databaseLens).start isolation w).1 = .ok () := h
  rw [afterUnit, repository, Repository.execute_standard_of_start hstart lift work]
  generalize hran : work (context connector s.formatter) (w.opened connector isolation) = ran
  obtain ⟨outcome, worked⟩ := ran
  have hran' : work (Context.ofFormatter (connector.zoom databaseLens).transaction s.formatter)
      ((connector.zoom databaseLens).start isolation w).2 = (outcome, worked) := hran
  simp only [hran']
  cases outcome with
  | error e =>
    exact ⟨(connector.transaction.rollback worked.database).2, false, rfl,
      hg.rollback_keeps worked.database⟩
  | ok value =>
    cases hc : (connector.transaction.commit worked.database).1 with
    | ok =>
      rw [Repository.finish_of_commit (S := S) lift
        (Context.ofFormatter (connector.zoom databaseLens).transaction s.formatter) value hc]
      exact ⟨(connector.transaction.commit worked.database).2, true, rfl, hg.commits hc⟩
    | error e =>
      rw [Repository.finish_of_failed_commit (S := S) lift
        (Context.ofFormatter (connector.zoom databaseLens).transaction s.formatter) value hc]
      exact ⟨(connector.transaction.commit worked.database).2, false, rfl,
        hg.failed_commit_keeps hc⟩

namespace Invariant

theorem during (h : Invariant id committed w)
    (hg : CommitsRow S s column connector id committed stored) {isolation : IsolationLevel}
    (hs : (connector.start isolation w.database).1 = .ok ()) (i : ι) :
    During id committed stored i w (w.opened connector isolation) where
  closed := rfl
  others _ _ := rfl
  kept := hg.start_keeps isolation w.database
  carries x hx := by
    obtain ⟨n, hc, -⟩ := h.inStep i x hx
    exact ⟨n, hc, fun _ => ⟨x, hx, hc⟩, fun hd => absurd h.idle hd⟩
  unwritten _ := hg.begins hs
  written hm := by simp [opened, h.idle] at hm
  unread hu := by simp [opened, h.idle] at hu

theorem inStep_of_holds {n : Int32} (h : Invariant id committed w) (hn : Holds id i w n) :
    ¬ Adrift i w.closed → InStep i w.closed n (committed w.database) := by
  obtain ⟨x, hx, hc⟩ := hn
  obtain ⟨m, hm, hstep⟩ := h.inStep i x hx
  cases hc.version.symm.trans hm.version
  exact hstep

/-- The unit that is closed did not write unread over what its client had not seen, unless that
client was adrift before. -/
theorem unread_cons {worked : Clientele ι S σ} (h : Invariant id committed w)
    (hd : During id committed stored i w worked) (ok : Bool) :
    ∀ u earlier, u :: earlier <:+ ⟨i, worked.deeds, ok⟩ :: w.closed → u.WritesUnread →
      Overtaken u.client earlier → Adrift u.client earlier := by
  intro u earlier hsuffix hu ho
  rcases List.suffix_cons_iff.mp hsuffix with heq | hsuffix
  · obtain ⟨rfl, rfl⟩ := List.cons.inj heq
    obtain ⟨n, v, hn, hv, hle⟩ := hd.unread hu
    by_contra ha
    obtain ⟨hge, hiff⟩ := h.inStep_of_holds hn ha v hv
    exact hiff.mp (Int32.le_antisymm hge hle) ho
  · exact h.unread u earlier hsuffix hu ho

theorem own_inStep {worked : Clientele ι S σ} {x : S} {version : Option Int32} {ok : Bool}
    (h : Invariant id committed w) (hd : During id committed stored i w worked)
    (hversion : version = if ok then stored worked.database else committed worked.database)
    (hx : worked.inHand i = some x) : ∃ n, Carries id n x ∧
      (¬ Adrift i (⟨i, worked.deeds, ok⟩ :: w.closed) →
        InStep i (⟨i, worked.deeds, ok⟩ :: w.closed) n version) := by
  obtain ⟨n, hc, hsame, hcurrent⟩ := hd.carries x hx
  -- Where nothing was written, both databases have the version from before.
  have hunwritten : .wrote ∉ worked.deeds →
      version = committed w.database ∧ version = stored worked.database := by
    intro hw
    have hs := hd.unwritten hw
    cases ok with
    | true => exact ⟨hversion.trans hs, hversion⟩
    | false => exact ⟨hversion.trans hd.kept, (hversion.trans hd.kept).trans hs.symm⟩
  refine ⟨n, hc, fun ha => ?_⟩
  by_cases hdeeds : worked.deeds = []
  · have hidle : (⟨i, worked.deeds, ok⟩ : ClosedUnit ι).deeds = [] := hdeeds
    rw [adrift_cons_of_idle fun _ => hidle] at ha
    rw [(hunwritten (by simp [hdeeds])).1]
    intro v hv
    rw [overtaken_cons_of_idle hidle]
    exact h.inStep_of_holds (hsame hdeeds) ha v hv
  · -- An undone write sets the client adrift; any other deed brings it to the version of the row.
    by_cases hw : .wrote ∈ worked.deeds ∧ ok = false
    · exact absurd (.now rfl hw.2 hw.1) ha
    · have hsettles : ClosedUnit.Settles i ⟨i, worked.deeds, ok⟩ := by
        refine ⟨rfl, ?_⟩
        by_cases hw' : .wrote ∈ worked.deeds
        · exact .inr ⟨by simpa [hw'] using hw, hw'⟩
        · obtain ⟨deed, hdeed⟩ := List.exists_mem_of_ne_nil _ hdeeds
          cases deed with
          | loaded => exact .inl hdeed
          | wrote => exact absurd hdeed hw'
      intro v hv
      have hs : stored worked.database = some v := by
        by_cases hw' : .wrote ∈ worked.deeds
        · have hok : ok = true := by simpa [hw'] using hw
          rw [← hv, hversion, hok, if_pos rfl]
        · rw [← (hunwritten hw').2, hv]
      obtain rfl := hcurrent hdeeds v hs
      exact ⟨Int32.le_refl v, iff_of_true rfl (overtaken_cons_of_settles hsettles)⟩

theorem others_inStep {worked : Clientele ι S σ} {j : ι} {x : S} {version : Option Int32}
    {ok : Bool} (h : Invariant id committed w) (hd : During id committed stored i w worked)
    (hversion : version = if ok then stored worked.database else committed worked.database)
    (hj : j ≠ i) (hx : worked.inHand j = some x) : ∃ n, Carries id n x ∧
      (¬ Adrift j (⟨i, worked.deeds, ok⟩ :: w.closed) →
        InStep j (⟨i, worked.deeds, ok⟩ :: w.closed) n version) := by
  rw [hd.others j hj] at hx
  obtain ⟨n, hc, hstep⟩ := h.inStep j x hx
  refine ⟨n, hc, fun ha => ?_⟩
  have hclient : (⟨i, worked.deeds, ok⟩ : ClosedUnit ι).client ≠ j := Ne.symm hj
  rw [adrift_cons_of_idle fun hi => absurd hi hclient] at ha
  intro v hv
  by_cases hchanges : ClosedUnit.Changes ⟨i, worked.deeds, ok⟩
  · obtain ⟨hok, hw⟩ := hchanges
    have hok' : ok = true := hok
    rw [hok', if_pos rfl] at hversion
    obtain ⟨v₀, hv₀, hlt⟩ := hd.written hw v (hversion.symm.trans hv)
    -- The version was not above that of the row before, which the write has left behind.
    have hlt' : n < v := Int32.lt_of_le_of_lt (hstep ha v₀ hv₀).1 hlt
    exact ⟨Int32.le_of_lt hlt', iff_of_false (Int32.ne_of_lt hlt')
      (not_not_intro (.now hclient ⟨hok, hw⟩))⟩
  · rw [overtaken_cons_of_other hclient hchanges]
    refine hstep ha v ?_
    rw [← hv, hversion]
    cases ok with
    | false => exact hd.kept.symm
    | true => exact (hd.unwritten fun hw => hchanges ⟨rfl, hw⟩).symm

theorem close {worked : Clientele ι S σ} {after : Clientele ι S σ}
    (h : Invariant id committed w) (hd : During id committed stored i w worked)
    (he : Ends committed stored i worked after) : Invariant id committed after := by
  obtain ⟨database, ok, rfl, hversion⟩ := he
  have hclosed : (Clientele.close i ok { worked with database }).closed =
      ⟨i, worked.deeds, ok⟩ :: w.closed := by
    rw [Clientele.close, hd.closed]
  refine ⟨rfl, fun j x hx => ?_, ?_⟩
  · rw [hclosed]
    by_cases hj : j = i
    · subst hj
      exact h.own_inStep hd hversion hx
    · exact h.others_inStep hd hversion hj hx
  · rw [hclosed]
    exact h.unread_cons hd ok

/-- A unit whose transaction could not be begun leaves everything as it was. -/
theorem failed_start (h : Invariant id committed w)
    (hg : CommitsRow S s column connector id committed stored) (isolation : IsolationLevel)
    (i : ι) : Invariant id committed (Clientele.close i false (w.opened connector isolation)) := by
  have hidle : (⟨i, w.deeds, false⟩ : ClosedUnit ι).deeds = [] := h.idle
  refine ⟨rfl, fun j x hx => ?_, fun u earlier hsuffix hu ho => ?_⟩
  · obtain ⟨n, hc, hstep⟩ := h.inStep j x hx
    refine ⟨n, hc, fun ha v hv => ?_⟩
    have ha' : ¬ Adrift j w.closed := (adrift_cons_of_idle fun _ => hidle).not.mp ha
    obtain ⟨hle, hiff⟩ := hstep ha' v ((hg.start_keeps isolation w.database).symm.trans hv)
    exact ⟨hle, hiff.trans (overtaken_cons_of_idle hidle).not.symm⟩
  · rcases List.suffix_cons_iff.mp hsuffix with heq | hsuffix
    · obtain ⟨rfl, rfl⟩ := List.cons.inj heq
      simp [ClosedUnit.WritesUnread, opened, h.idle] at hu
    · exact h.unread u earlier hsuffix hu ho

end Invariant

/-- Whatever units the clients run, the invariant holds between them. -/
theorem Reachable.invariant [DecidableEq ι] [LawfulSaga S]
    (hv : s.metadata.versionColumn = some column)
    (hg : CommitsRow S s column connector id committed stored)
    (hr : Reachable connector s.formatter id w) : Invariant id committed w := by
  induction hr with
  | start database => exact ⟨rfl, nofun, fun _ _ hsuffix => nomatch List.suffix_nil.mp hsuffix⟩
  | @unit w i E R isolation lift work _ hw ih =>
    cases hs : (connector.start isolation w.database).1 with
    | error e =>
      rw [afterUnit_of_failed_start hs]
      exact ih.failed_start hg isolation i
    | ok =>
      exact ih.close ((ih.during hg hs i).program hv hg hw) (afterUnit_ends hg hs lift i work)

/-! ## Outcomes -/

/-- Whether a client's instance of a given version can be sent in a write. -/
def Sendable (s : Schema) (operation : WriteOperation) (x : S) (n : Int32) : Prop :=
  n ≠ Int32.maxValue ∧ ∃ c, Context.writeCommand s.metadata (s.formatter.statement operation)
    (some (n + 1)) (Saga.setVersion (n + 1) x) = .ok c

/-- A write at the beginning of a unit goes through exactly if the version in hand is not below that
of the row. -/
theorem write_ok_iff [DecidableEq ι] [LawfulSaga S] (hv : s.metadata.versionColumn = some column)
    (hg : CommitsRow S s column connector id committed stored) {x : S} {n : Int32}
    (hx : w.inHand i = some x) (hc : Carries id n x) {isolation : IsolationLevel}
    (hs : (connector.start isolation w.database).1 = .ok ()) {operation : WriteOperation}
    (ho : operation ≠ .insert) :
    (write (context connector s.formatter) operation i (w.opened connector isolation)).1 =
        some (.ok ()) ↔
      Sendable s operation x n ∧ ∃ v, committed w.database = some v ∧ v ≤ n := by
  have hx' : (w.opened connector isolation).inHand i = some x := hx
  have hok := (hg.guards.zoom databaseLens).perform_ok_iff hv ho hc (w.opened connector isolation)
  have hbegins : stored (databaseLens.get (w.opened connector isolation)) = committed w.database :=
    hg.begins hs
  rw [hbegins, ← and_assoc] at hok
  rw [write_of_held hx', Option.some.injEq]
  exact hok

/-- Updates are lost to undone units, and to nothing else. A unit that writes an instance as its
client had it before, over a write that another client committed since that client last loaded it or
committed a write of it, is one of a client whose last deeds in a unit were undone with a write
among them. For any other client, a write at the beginning of a unit goes through exactly if the
row is there and the client was not overtaken; for such a client it goes through all the same if the
version in hand, which the undone unit has advanced, is not below that of the row. -/
theorem overwrites_unseen_iff_adrift [DecidableEq ι] [LawfulSaga S]
    (hv : s.metadata.versionColumn = some column)
    (hg : CommitsRow S s column connector id committed stored)
    (hr : Reachable connector s.formatter id w) :
    (∀ u earlier, u :: earlier <:+ w.closed → u.WritesUnread →
      Overtaken u.client earlier → Adrift u.client earlier) ∧
    ∀ i x, w.inHand i = some x → ∃ n, Carries id n x ∧
      ∀ isolation, (connector.start isolation w.database).1 = .ok () → ∀ operation ≠ .insert,
        let written := (write (context connector s.formatter) operation i
          (w.opened connector isolation)).1
        (¬ Adrift i w.closed → (written = some (.ok ()) ↔ Sendable s operation x n ∧
          (committed w.database).isSome = true ∧ ¬ Overtaken i w.closed)) ∧
        (written = some (.ok ()) ∧ Overtaken i w.closed ↔ Sendable s operation x n ∧
          Overtaken i w.closed ∧ Adrift i w.closed ∧
            ∃ v, committed w.database = some v ∧ v ≤ n) := by
  have h := hr.invariant hv hg
  refine ⟨h.unread, fun i x hx => ?_⟩
  obtain ⟨n, hc, hstep⟩ := h.inStep i x hx
  refine ⟨n, hc, fun isolation hs operation ho => ?_⟩
  have hok := write_ok_iff hv hg hx hc hs ho
  have hseen : ¬ Adrift i w.closed → ((∃ v, committed w.database = some v ∧ v ≤ n) ↔
      (committed w.database).isSome = true ∧ ¬ Overtaken i w.closed) := by
    intro ha
    constructor
    · rintro ⟨v, hcommitted, hle⟩
      obtain ⟨hge, hiff⟩ := hstep ha v hcommitted
      exact ⟨by rw [hcommitted]; rfl, hiff.mp (Int32.le_antisymm hge hle)⟩
    · rintro ⟨hrow, ho⟩
      obtain ⟨v, hcommitted⟩ := Option.isSome_iff_exists.mp hrow
      exact ⟨v, hcommitted, Int32.le_of_eq ((hstep ha v hcommitted).2.mpr ho).symm⟩
  intro written
  refine ⟨fun ha => hok.trans (and_congr_right fun _ => hseen ha), ?_, ?_⟩
  · rintro ⟨hw, ho⟩
    obtain ⟨hsend, hversion⟩ := hok.mp hw
    refine ⟨hsend, ho, ?_, hversion⟩
    by_contra ha
    exact ((hseen ha).mp hversion).2 ho
  · rintro ⟨hsend, ho, -, hversion⟩
    exact ⟨hok.mpr ⟨hsend, hversion⟩, ho⟩

end Clientele

/-! ## Orders -/

namespace Samples.Order

open Clientele

abbrev Customers := Clientele Bool Order DraftTable

def customers : Connector DraftTable :=
  schema.draftTable "Version"

def customersContext : Context Order Customers :=
  Clientele.context customers schema.formatter

def customersUnit (i : Bool) (work : StateM Customers (Except Unit Unit)) (w : Customers) :
    Customers :=
  w.afterUnit customers schema.formatter .readCommitted (fun _ => ()) i fun _ => work

theorem reachable_customersUnit {i : Bool} {work : StateM Customers (Except Unit Unit)}
    {w : Customers} (hw : Program customersContext firstKey i work)
    (h : Reachable customers schema.formatter firstKey w) :
    Reachable customers schema.formatter firstKey (customersUnit i work w) :=
  h.unit (show Program customersContext firstKey i ((fun _ => work) customersContext) from hw)

def reading (i : Bool) : StateM Customers (Except Unit Unit) := do
  let _ ← Clientele.load customersContext firstKey i
  return .ok ()

theorem program_reading (i : Bool) : Program customersContext firstKey i (reading i) :=
  .bind .load fun _ => .own fun _ => rfl

/-- Work that updates the order and then succeeds or fails. -/
def updating (i : Bool) (result : Except Unit Unit) : StateM Customers (Except Unit Unit) := do
  let _ ← Clientele.write customersContext .update i
  return result

theorem program_updating (i : Bool) (result : Except Unit Unit) :
    Program customersContext firstKey i (updating i result) :=
  .bind (.write (by decide)) fun _ => .own fun _ => rfl

/-- A customer has loaded an order and updated it in a unit that was undone; then the other one has
loaded it and committed an update. -/
def keptOrder : Customers :=
  let table : VersionTable := fun _ => some 1
  let loaded := customersUnit false (reading false) ⟨⟨table, table⟩, fun _ => none, [], []⟩
  let undone := customersUnit false (updating false (.error ())) loaded
  customersUnit true (updating true (.ok ())) (customersUnit true (reading true) undone)

theorem reachable_keptOrder : Reachable customers schema.formatter firstKey keptOrder :=
  reachable_customersUnit (program_updating true _) <|
    reachable_customersUnit (program_reading true) <|
      reachable_customersUnit (program_updating false _) <|
        reachable_customersUnit (program_reading false) (.start _)

theorem commitsRow_customers : CommitsRow Order schema "Version" customers firstKey
    (·.kept firstKey) (·.draft firstKey) :=
  Schema.draftTable_commitsRow versionTable_guardsRow

theorem overtaken_keptOrder : Overtaken false keptOrder.closed :=
  .now (u := ⟨true, [.wrote], true⟩) nofun ⟨rfl, List.mem_singleton_self _⟩

theorem adrift_keptOrder : Adrift false keptOrder.closed :=
  .before (u := ⟨true, [.wrote], true⟩) nofun <|
    .before (u := ⟨true, [.loaded], true⟩) nofun <|
      .now (u := ⟨false, [.wrote], false⟩) rfl rfl (by decide)

/-- The first customer's order is at the version of the row, which the other customer wrote, so its
next update goes through. -/
theorem kept_order_passes_guard :
    (Clientele.write customersContext .update false
      (keptOrder.opened customers .readCommitted)).1 = some (.ok ()) := by
  obtain ⟨-, hwrites⟩ := overwrites_unseen_iff_adrift rfl commitsRow_customers reachable_keptOrder
  obtain ⟨n, hc, hstart⟩ := hwrites false ⟨firstKey, 2, none, none⟩ rfl
  have hn : 2 = n := Option.some.inj hc.version
  subst hn
  have hiff := (hstart .readCommitted rfl .update (by decide)).2
  have hsendable : Sendable schema .update (⟨firstKey, 2, none, none⟩ : Order) 2 :=
    ⟨by decide, _, rfl⟩
  exact (hiff.mpr ⟨hsendable, overtaken_keptOrder, adrift_keptOrder, 2, rfl, by decide⟩).1

/-- It commits an update over one that it has never seen. -/
theorem kept_order_overwrites :
    let w := customersUnit false (updating false (.ok ())) keptOrder
    Reachable customers schema.formatter firstKey w ∧ ∃ u earlier, w.closed = u :: earlier ∧
      u.client = false ∧ u.Changes ∧ u.WritesUnread ∧ Overtaken false earlier := by
  intro w
  have hr : Reachable customers schema.formatter firstKey w :=
    reachable_customersUnit (program_updating false _) reachable_keptOrder
  have hclosed : w.closed = ⟨false, [.wrote], true⟩ :: keptOrder.closed := by decide +kernel
  exact ⟨hr, _, _, hclosed, rfl, ⟨rfl, List.mem_singleton_self _⟩, rfl, overtaken_keptOrder⟩

end Samples.Order

end Sagas
