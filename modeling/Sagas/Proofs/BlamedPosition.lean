import Sagas.Proofs.ArgumentOrder

/-! The position that is blamed where parameters are not numbered from one on, and whether it is a
wrong one. -/
namespace Sagas.Postgres

/-! ## Wrong positions -/

/-- How often a position is due among parameters: zero is not, and each of the others once. -/
def due (position : Nat) : Nat :=
  if position = 0 then 0 else 1

/-- The least position that does not stand in a list as often as it is due. -/
structure FirstWrong (positions : List Nat) (first : Nat) : Prop where
  wrong : positions.count first ≠ due first
  before : ∀ position < first, positions.count position = due position

/-- What is blamed for the first wrong position: it itself if it is missing, else the one after
it. -/
def blamed (positions : List Nat) (first : Nat) : Nat :=
  if positions.count first = 0 then first else first + 1

theorem FirstWrong.unique {positions : List Nat} {first other : Nat}
    (h : FirstWrong positions first) (h' : FirstWrong positions other) : first = other := by
  rcases Nat.lt_trichotomy first other with hlt | heq | hlt
  · exact absurd (h'.before first hlt) h.wrong
  · exact heq
  · exact absurd (h.before other hlt) h'.wrong

theorem count_blamed_ne_one_iff (positions : List Nat) (first : Nat) :
    positions.count (blamed positions first) ≠ 1 ↔
      positions.count first = 0 ∨ positions.count (first + 1) ≠ 1 := by
  rw [blamed]
  split
  next h => simp [h]
  next h => simp [h]

/-! ## Positions in order -/

theorem count_range'_one (m position : Nat) :
    (List.range' 1 m).count position = if position ≤ m then due position else 0 := by
  rw [(List.nodup_range' (s := 1) (n := m)).count, due]
  simp only [List.mem_range'_1]
  split_ifs <;> omega

/-- In order, the first position that is not the next number is one below it, and stands there for
the second time, or above it, so that this number is missing. -/
theorem exists_firstWrong_of_split {m position : Nat} {rest : List Nat}
    (hs : (List.range' 1 m ++ position :: rest).Pairwise (· ≤ ·)) (hp : position ≠ m + 1) :
    ∃ first, FirstWrong (List.range' 1 m ++ position :: rest) first ∧
      blamed (List.range' 1 m ++ position :: rest) first = m + 1 := by
  obtain ⟨-, hrest, hle⟩ := List.pairwise_append.mp hs
  have hm : m ≤ position := by
    cases m with
    | zero => exact Nat.zero_le _
    | succ m => exact hle (m + 1) (by simp [List.mem_range'_1]) position List.mem_cons_self
  have hcount : ∀ i, (List.range' 1 m ++ position :: rest).count i =
      (if i ≤ m then due i else 0) + (position :: rest).count i := fun i => by
    rw [List.count_append, count_range'_one]
  have hnone : ∀ i < position, (position :: rest).count i = 0 := by
    intro i hi
    refine List.count_eq_zero.mpr fun hmem => ?_
    rcases List.mem_cons.mp hmem with rfl | hmem
    · exact Nat.lt_irrefl _ hi
    · exact Nat.not_lt.mpr ((List.pairwise_cons.mp hrest).1 i hmem) hi
  rcases Nat.eq_or_lt_of_le hm with rfl | hlt
  · have hpos : 0 < (m :: rest).count m := List.count_pos_iff.mpr List.mem_cons_self
    refine ⟨m, ⟨?_, fun i hi => ?_⟩, ?_⟩
    · rw [hcount, if_pos (Nat.le_refl m)]
      omega
    · rw [hcount, hnone i hi, if_pos (Nat.le_of_lt hi), Nat.add_zero]
    · rw [blamed, if_neg]
      rw [hcount]
      omega
  · have hmissing : (List.range' 1 m ++ position :: rest).count (m + 1) = 0 := by
      rw [hcount, hnone (m + 1) (by omega), if_neg (Nat.not_succ_le_self m)]
    refine ⟨m + 1, ⟨?_, fun i hi => ?_⟩, ?_⟩
    · rw [hmissing, due, if_neg (Nat.succ_ne_zero m)]
      exact Nat.zero_ne_one
    · rw [hcount, hnone i (by omega), if_pos (Nat.le_of_lt_succ hi), Nat.add_zero]
    · rw [blamed, if_pos hmissing]

/-! ## Binding -/

/-- Parameters that are not numbered from a start on are so up to a first one. -/
theorem exists_split_of_ne_range' {start : Nat} {placed : List (Nat × Parameter)}
    (h : placed.map Prod.fst ≠ List.range' start placed.length) :
    ∃ before position p rest, placed = before ++ (position, p) :: rest ∧
      before.map Prod.fst = List.range' start before.length ∧ position ≠ start + before.length := by
  induction placed generalizing start with
  | nil => exact absurd rfl h
  | cons head placed ih =>
    obtain ⟨position, p⟩ := head
    by_cases hp : position = start
    · subst hp
      have hrest : placed.map Prod.fst ≠ List.range' (position + 1) placed.length := fun hrest =>
        h (by rw [List.map_cons, hrest, List.length_cons, List.range'_succ])
      obtain ⟨before, other, q, rest, rfl, hbefore, hother⟩ := ih hrest
      refine ⟨(position, p) :: before, other, q, rest, rfl, ?_, ?_⟩
      · rw [List.map_cons, hbefore, List.length_cons, List.range'_succ]
      · rw [List.length_cons]
        omega
    · exact ⟨[], position, p, placed, rfl, rfl, hp⟩

/-- Arguments are made up to the first position that is not the next number, which is blamed. -/
theorem argumentsFrom_of_split {start position : Nat} {p : Parameter}
    {before rest : List (Nat × Parameter)}
    (hbefore : before.map Prod.fst = List.range' start before.length)
    (hbound : ∀ q ∈ before, ∃ a, argument q.2.value q.2.type = .ok a)
    (hp : position ≠ start + before.length) :
    argumentsFrom start (before ++ (position, p) :: rest) =
      .error (.configuration (.positionMismatch (start + before.length))) := by
  induction before generalizing start with
  | nil =>
    have hne : position ≠ start := hp
    rw [List.nil_append, argumentsFrom, if_pos hne]
    rfl
  | cons head before ih =>
    obtain ⟨first, q⟩ := head
    rw [List.map_cons, List.length_cons, List.range'_succ] at hbefore
    obtain ⟨rfl, htail⟩ := List.cons.inj hbefore
    obtain ⟨⟨a, ha⟩, hbound⟩ := List.forall_mem_cons.mp hbound
    have hrest := ih htail hbound (by rw [List.length_cons] at hp; omega)
    rw [List.cons_append, argumentsFrom, if_neg (not_not_intro rfl), ha, hrest, List.length_cons,
      Nat.add_assoc, Nat.add_comm 1]
    rfl

variable {ps : List Parameter} {positions : List Nat}

/-- If all values can be bound, binding fails with what is blamed for the first wrong position. -/
theorem exists_firstWrong_of_bindArguments (hkeys : ps.map (·.key) = positions.map .positional)
    (hbound : ∀ p ∈ ps, ∃ a, argument p.value p.type = .ok a)
    (hwrong : ¬ positions.Perm (List.range' 1 positions.length)) :
    ∃ first, FirstWrong positions first ∧
      bindArguments ps = .error (.configuration (.positionMismatch (blamed positions first))) := by
  have hlength : positions.length = ps.length := by
    simpa using (congrArg List.length hkeys).symm
  -- What is sorted has the same positions, as often.
  let sorted := (positions.zip ps).mergeSort fun a b => a.1 ≤ b.1
  have hperm : sorted.Perm (positions.zip ps) := List.mergeSort_perm _ _
  have hpositions : (sorted.map Prod.fst).Perm positions := by
    have hfst : (positions.zip ps).map Prod.fst = positions := List.map_fst_zip (by omega)
    exact hfst ▸ hperm.map Prod.fst
  have hsorted : (sorted.map Prod.fst).Pairwise (· ≤ ·) := by
    refine List.pairwise_map.mpr ((List.pairwise_mergeSort (fun a b c hab hbc => ?_)
      (fun a b => ?_) _).imp of_decide_eq_true)
    · simp_all only [decide_eq_true_eq]
      omega
    · simp only [Bool.or_eq_true, decide_eq_true_eq]
      omega
  have hne : sorted.map Prod.fst ≠ List.range' 1 sorted.length := fun heq => by
    have hlength : sorted.length = positions.length := by simpa using hpositions.length_eq
    rw [heq, hlength] at hpositions
    exact hwrong hpositions.symm
  obtain ⟨before, position, p, rest, hsplit, hbefore, hp⟩ := exists_split_of_ne_range' hne
  have hfst : sorted.map Prod.fst =
      List.range' 1 before.length ++ position :: rest.map Prod.fst := by
    rw [hsplit, List.map_append, hbefore, List.map_cons]
  rw [hfst] at hsorted hpositions
  obtain ⟨first, hfirst, hblamed⟩ := exists_firstWrong_of_split hsorted (by omega)
  simp only [blamed, hpositions.count_eq] at hblamed
  refine ⟨first, ⟨?_, fun i hi => ?_⟩, ?_⟩
  · rw [← hpositions.count_eq]
    exact hfirst.wrong
  · rw [← hpositions.count_eq]
    exact hfirst.before i hi
  · have hvalues : ∀ q ∈ before, ∃ a, argument q.2.value q.2.type = .ok a := by
      intro q hq
      have hmem : q ∈ sorted := hsplit ▸ List.mem_append_left _ hq
      exact hbound q.2 (List.of_mem_zip (hperm.mem_iff.mp hmem)).2
    rw [bindArguments, mapM_positionOf hkeys, blamed, hblamed, Nat.add_comm]
    change argumentsFrom 1 sorted = _
    rw [hsplit]
    exact argumentsFrom_of_split hbefore hvalues hp

/-- Parameters whose values can all be bound, and whose positions are not the numbers from one on in
any order, are refused with a position. It is a wrong one, missing or there more than once, if and
only if the first wrong position is missing or the one after it is wrong as well. -/
theorem blamed_position_wrong_iff (hkeys : ps.map (·.key) = positions.map .positional)
    (hbound : ∀ p ∈ ps, ∃ a, argument p.value p.type = .ok a)
    (hwrong : ¬ positions.Perm (List.range' 1 positions.length)) :
    ∃ first, FirstWrong positions first ∧
      bindArguments ps = .error (.configuration (.positionMismatch (blamed positions first))) ∧
      (positions.count (blamed positions first) ≠ 1 ↔
        positions.count first = 0 ∨ positions.count (first + 1) ≠ 1) := by
  obtain ⟨first, hfirst, h⟩ := exists_firstWrong_of_bindArguments hkeys hbound hwrong
  exact ⟨first, hfirst, h, count_blamed_ne_one_iff positions first⟩

def nulls (positions : List Nat) : List Parameter :=
  positions.map fun position => ⟨.positional position, .null, none⟩

theorem exists_argument_of_mem_nulls :
    ∀ p ∈ nulls positions, ∃ a, argument p.value p.type = .ok a := by
  intro p hp
  obtain ⟨position, -, rfl⟩ := List.mem_map.mp hp
  exact ⟨_, rfl⟩

theorem nulls_keys : (nulls positions).map (·.key) = positions.map .positional := by
  simp [nulls]

/-- A position that is left out is blamed. -/
theorem gap_blamed :
    bindArguments (nulls [3, 1]) = .error (.configuration (.positionMismatch 2)) ∧
      [3, 1].count 2 ≠ 1 := by
  obtain ⟨first, hfirst, h, hiff⟩ :=
    blamed_position_wrong_iff nulls_keys exists_argument_of_mem_nulls
      (show ¬ [3, 1].Perm (List.range' 1 2) by decide)
  cases hfirst.unique (show FirstWrong [3, 1] 2 from ⟨by decide, by decide⟩)
  exact ⟨h, hiff.mpr (.inl (by decide))⟩

/-- Where the first position is there twice, the second one is blamed, which is there once. -/
theorem position_after_double_blamed :
    bindArguments (nulls [1, 2, 1]) = .error (.configuration (.positionMismatch 2)) ∧
      (∀ p ∈ nulls [1, 2, 1], ∃ a, argument p.value p.type = .ok a) ∧
      ¬ [1, 2, 1].Perm (List.range' 1 3) ∧ [1, 2, 1].count 1 = 2 ∧ [1, 2, 1].count 2 = 1 ∧
      (ConfigurationFault.positionMismatch 2).message =
        "Parameter $2 is missing or bound twice" := by
  have hwrong : ¬ [1, 2, 1].Perm (List.range' 1 3) := by decide
  obtain ⟨first, hfirst, h⟩ :=
    exists_firstWrong_of_bindArguments nulls_keys exists_argument_of_mem_nulls hwrong
  cases hfirst.unique (show FirstWrong [1, 2, 1] 1 from ⟨by decide, by decide⟩)
  exact ⟨h, exists_argument_of_mem_nulls, hwrong, by decide, by decide, by decide⟩

end Sagas.Postgres
