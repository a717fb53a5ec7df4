import Mathlib.Data.List.Perm.Basic
import Sagas.Proofs.Positions

/-! Parameters for a PostgreSQL server are bound by position: the order in which they are listed has
no part in it. -/
namespace Sagas.Postgres

variable {ps qs : List Parameter} {args : List Argument}

/-- The parameters `$1`, `$2` and so on, in this order. -/
def Numbered (ps : List Parameter) : Prop :=
  ps.map (·.key) = (List.range' 1 ps.length).map .positional

/-- The parameters `$1`, `$2` and so on, in any order: all are positional, and their positions are
a permutation of the numbers from one on. -/
def Placed (ps : List Parameter) : Prop :=
  (ps.map (·.key)).Perm ((List.range' 1 ps.length).map .positional)

instance : Decidable (Placed ps) :=
  inferInstanceAs (Decidable (List.Perm _ _))

theorem Placed.of_perm (hp : qs.Perm ps) (h : Placed ps) : Placed qs := by
  rw [Placed, hp.length_eq]
  exact (hp.map _).trans h

/-- Placed parameters can be put in order. -/
theorem placed_iff_exists_numbered :
    Placed ps ↔ ∃ ordered, Numbered ordered ∧ ordered.Perm ps := by
  constructor
  · intro h
    obtain ⟨ordered, hkeys, hp⟩ : Relation.Comp (fun keys ordered => keys = ordered.map (·.key))
        List.Perm ((List.range' 1 ps.length).map .positional) ps := by
      rw [List.eq_map_comp_perm]
      exact h.symm
    refine ⟨ordered, ?_, hp⟩
    rw [Numbered, hp.length_eq, hkeys]
  · rintro ⟨ordered, h, hp⟩
    exact Placed.of_perm hp.symm (.of_eq h)

theorem Numbered.getElem?_eq_some_iff (h : Numbered ps) {i : Nat} {p : Parameter} :
    ps[i]? = some p ↔ p ∈ ps ∧ p.key = .positional (i + 1) := by
  have hkey : ∀ {j : Nat}, ps[j]? = some p → p.key = .positional (j + 1) := by
    intro j hj
    obtain ⟨hlt, rfl⟩ := List.getElem?_eq_some_iff.mp hj
    have hkeys := congrArg (·[j]?) h
    simpa [hlt, Nat.add_comm] using hkeys
  constructor
  · intro hi
    exact ⟨List.mem_of_getElem? hi, hkey hi⟩
  · rintro ⟨hmem, hi⟩
    obtain ⟨j, hj⟩ := List.mem_iff_getElem?.mp hmem
    have hji : j + 1 = i + 1 := ParameterKey.positional.inj ((hkey hj).symm.trans hi)
    rwa [← Nat.succ.inj hji]

/-! ## Sorting -/

theorem key_eq_of_positionOf {p : Parameter} {placed : Nat × Parameter}
    (h : positionOf p = .ok placed) : p.key = .positional placed.1 := by
  rw [positionOf] at h
  split at h
  · rename_i hkey
    cases h
    exact hkey
  · cases h

theorem fst_eq_of_argumentsFrom {start : Nat} {placed : List (Nat × Parameter)}
    (h : argumentsFrom start placed = .ok args) :
    placed.map Prod.fst = List.range' start placed.length := by
  induction placed generalizing start args with
  | nil => rfl
  | cons head rest ih =>
    obtain ⟨position, p⟩ := head
    rw [argumentsFrom] at h
    by_cases hposition : position = start
    · cases ha : argument p.value p.type with
      | error fault => simp [hposition, ha, Except.mapError, bind, Except.bind] at h
      | ok first =>
        cases hr : argumentsFrom (start + 1) rest with
        | error e => simp [hposition, ha, hr, Except.mapError, bind, Except.bind] at h
        | ok others => simp [hposition, ih hr, List.range'_succ]
    · simp [hposition, throw, throwThe, MonadExceptOf.throw, bind, Except.bind] at h

theorem placed_of_bindArguments (h : bindArguments ps = .ok args) : Placed ps := by
  rw [bindArguments] at h
  cases hm : ps.mapM positionOf with
  | error fault => rw [hm] at h; cases h
  | ok placed =>
    rw [hm] at h
    have hplaced := mapM_eq_ok_iff.mp hm
    have hkeys : ps.map (·.key) = placed.map fun q => .positional q.1 :=
      map_eq_map_of_forall₂ (hplaced.imp fun p q hq => key_eq_of_positionOf hq)
    -- Sorting only changes the order of the positions that the check then counts.
    have hpositions : (placed.map Prod.fst).Perm (List.range' 1 placed.length) := by
      have hsorted := fst_eq_of_argumentsFrom h
      rw [List.length_mergeSort] at hsorted
      rw [← hsorted]
      exact (List.mergeSort_perm placed _).symm.map _
    have hmapped := hpositions.map ParameterKey.positional
    rw [List.map_map] at hmapped
    rw [Placed, hkeys, hplaced.length_eq]
    exact hmapped

theorem mergeSort_eq_zip {placed : List (Nat × Parameter)}
    (h : placed.Perm ((List.range' 1 ps.length).zip ps)) :
    placed.mergeSort (fun a b => a.1 ≤ b.1) = (List.range' 1 ps.length).zip ps := by
  have hnodup : (((List.range' 1 ps.length).zip ps).map Prod.fst).Nodup := by
    rw [List.map_fst_zip (by simp)]
    exact List.nodup_range'
  have hsorted : (placed.mergeSort fun a b => a.1 ≤ b.1).Pairwise fun a b => decide (a.1 ≤ b.1) :=
    List.pairwise_mergeSort (fun a b c hab hbc => by simp_all; omega)
      (fun a b => by simp; omega) placed
  have hperm := (List.mergeSort_perm placed fun a b => decide (a.1 ≤ b.1)).trans h
  -- The order is on positions only, but as they are distinct it leaves one result.
  refine List.Perm.eq_of_pairwise (fun a b ha hb hab hba => ?_) hsorted
    (zip_range'_pairwise 1 ps) hperm
  exact List.inj_on_of_nodup_map hnodup (hperm.mem_iff.mp ha) hb
    (Nat.le_antisymm (of_decide_eq_true hab) (of_decide_eq_true hba))

/-- Sorting puts every parameter at its own place, so that parameters are bound as if they were
listed in order. -/
theorem bindArguments_of_perm (hn : Numbered ps) (hp : qs.Perm ps) :
    bindArguments qs = (ps.mapM fun p => argument p.value p.type).mapError .driver := by
  obtain ⟨placed, hqs, hperm⟩ := List.perm_comp_forall₂ hp (mapM_eq_ok_iff.mp (mapM_positionOf hn))
  rw [bindArguments, mapM_eq_ok_iff.mpr hqs, ← argumentsFrom_zip 1 ps, ← mergeSort_eq_zip hperm]
  rfl

/-! ## Binding -/

/-- Parameters in order have the arguments of their values at their own places. -/
theorem Numbered.getElem?_arguments (h : Numbered ps)
    (hargs : List.Forall₂ (fun p a => argument p.value p.type = .ok a) ps args) {i : Nat}
    {a : Argument} :
    args[i]? = some a ↔
      ∃ p ∈ ps, p.key = .positional (i + 1) ∧ argument p.value p.type = .ok a := by
  simp only [← and_assoc, ← h.getElem?_eq_some_iff]
  clear h
  induction hargs generalizing i with
  | nil => simp
  | cons ha _ ih =>
    cases i with
    | zero => simp [ha]
    | succ i => simp [ih]

/-- Binding succeeds exactly if the parameters can be put in order and their values be bound; the
arguments are those of the values in this order. -/
theorem bindArguments_eq_ok_iff :
    bindArguments ps = .ok args ↔ ∃ ordered, Numbered ordered ∧ ordered.Perm ps ∧
      List.Forall₂ (fun p a => argument p.value p.type = .ok a) ordered args := by
  have hrun : ∀ {ordered}, Numbered ordered → ordered.Perm ps → (bindArguments ps = .ok args ↔
      List.Forall₂ (fun p a => argument p.value p.type = .ok a) ordered args) := by
    intro ordered hn hp
    rw [bindArguments_of_perm hn hp.symm, ← mapM_eq_ok_iff]
    cases ordered.mapM fun p => argument p.value p.type <;> simp [Except.mapError]
  constructor
  · intro h
    obtain ⟨ordered, hn, hp⟩ := placed_iff_exists_numbered.mp (placed_of_bindArguments h)
    exact ⟨ordered, hn, hp, (hrun hn hp).mp h⟩
  · rintro ⟨ordered, hn, hp, hargs⟩
    exact (hrun hn hp).mpr hargs

theorem exists_arguments_iff :
    (∃ args, bindArguments ps = .ok args) ↔
      Placed ps ∧ ∀ p ∈ ps, ∃ a, argument p.value p.type = .ok a := by
  simp only [bindArguments_eq_ok_iff, placed_iff_exists_numbered]
  constructor
  · rintro ⟨args, ordered, hn, hp, hargs⟩
    have hbound := exists_mapM_eq_ok_iff.mp ⟨args, mapM_eq_ok_iff.mpr hargs⟩
    exact ⟨⟨ordered, hn, hp⟩, fun p hmem => hbound p (hp.mem_iff.mpr hmem)⟩
  · rintro ⟨⟨ordered, hn, hp⟩, hbound⟩
    obtain ⟨args, hargs⟩ := exists_mapM_eq_ok_iff.mpr fun p hmem => hbound p (hp.mem_iff.mp hmem)
    exact ⟨args, ordered, hn, hp, mapM_eq_ok_iff.mp hargs⟩

/-- Parameters are bound by position. They can be bound exactly if they are `$1`, `$2` and so on, in
any order, and each of their values can be bound; then the arguments are those of `$1`, `$2` and so
on. The order in which they are listed changes neither. -/
theorem bindArguments_by_position (ps : List Parameter) :
    ((∃ args, bindArguments ps = .ok args) ↔
        Placed ps ∧ ∀ p ∈ ps, ∃ a, argument p.value p.type = .ok a) ∧
      (∀ args, bindArguments ps = .ok args → args.length = ps.length ∧
        ∀ i a, args[i]? = some a ↔
          ∃ p ∈ ps, p.key = .positional (i + 1) ∧ argument p.value p.type = .ok a) ∧
      ∀ qs, qs.Perm ps → ∀ args, bindArguments qs = .ok args ↔ bindArguments ps = .ok args := by
  refine ⟨exists_arguments_iff, fun args h => ?_, fun qs hperm args => ?_⟩
  · obtain ⟨ordered, hn, hp, hargs⟩ := bindArguments_eq_ok_iff.mp h
    refine ⟨hargs.length_eq.symm.trans hp.length_eq, fun i a => ?_⟩
    rw [hn.getElem?_arguments hargs]
    simp only [hp.mem_iff]
  · simp only [bindArguments_eq_ok_iff, hperm.congr_right]

def shuffled : List Parameter :=
  [⟨.positional 2, .int 3, some .int⟩, ⟨.positional 1, .bool true, some .bool⟩]

/-- `$1` and `$2` are bound alike in both orders; one more `$2` cannot be bound. -/
theorem arguments_of_shuffled :
    ∃ args, bindArguments shuffled = .ok args ∧ args.length = 2 ∧
      args[0]? = some ⟨.bool, some (Wire.ofBool true)⟩ ∧
      args[1]? = some ⟨.int4, some (Wire.ofInt 4 3)⟩ ∧
      bindArguments shuffled.reverse = .ok args ∧
      ¬ ∃ others, bindArguments (⟨.positional 2, .null, none⟩ :: shuffled) = .ok others := by
  obtain ⟨hbound, harguments, horder⟩ := bindArguments_by_position shuffled
  have hvalues : ∀ p ∈ shuffled, ∃ a, argument p.value p.type = .ok a := by
    simp only [shuffled, List.forall_mem_cons]
    exact ⟨⟨_, rfl⟩, ⟨_, rfl⟩, nofun⟩
  obtain ⟨args, h⟩ := hbound.mpr ⟨by decide, hvalues⟩
  obtain ⟨hlength, hat⟩ := harguments args h
  refine ⟨args, h, hlength, ?_, ?_, (horder _ (List.reverse_perm _) args).mpr h, ?_⟩
  · exact (hat 0 _).mpr ⟨_, List.mem_cons_of_mem _ List.mem_cons_self, rfl, rfl⟩
  · exact (hat 1 _).mpr ⟨_, List.mem_cons_self, rfl, rfl⟩
  · intro hothers
    have hplaced := ((bindArguments_by_position _).1.mp hothers).1
    exact absurd hplaced (by decide)

end Sagas.Postgres
